import PageWarden.Proofs.Chart
import PageWarden.Proofs.Guard.Missed
/-!
# Unfelt — what a failing guard does to a request

A request is made of two wardens that are alike, except that on one of
them some of the calls for guard pages fail. Guards are asked for last, in
whatever part of a request they are asked for: what comes before does not
read the schedule for mapping and is the same on both. What comes after
reads no guard that was asked for. So both answer the same, and they end
alike but for the guards that were missed, which one has and the other
has not (`guards_unfelt`).

That holds on every system and whatever else is scheduled to fail, unless
it is unmapping.
-/

namespace PageWarden

variable {told ps : List (Nat × Bool)} {l : List (Option Errno)}

/-! ## Records -/

/-- The records are the same, handle by handle, but for missed guards. -/
def View.Misses (missed : List Nat) (V V' : View) : Prop :=
  ∀ k, Option.Rel (Record.Misses missed) (V k) (V' k)

/-- Records are like themselves. -/
protected theorem View.Misses.refl (missed : List Nat) (V : View) : V.Misses missed V := by
  intro k
  cases V k with
  | none => exact .none
  | some r => exact .some (.refl missed r)

/-- A record may be put in on both. -/
theorem View.Misses.update {missed : List Nat} {V V' : View} (h : V.Misses missed V')
    {r r' : Record} (hr : r.Misses missed r') (k : Handle) :
    View.Misses missed (Function.update V k (some r)) (Function.update V' k (some r')) := by
  intro j
  by_cases hj : j = k
  · rw [hj, Function.update_self, Function.update_self]
    exact .some hr
  · rw [Function.update_of_ne hj, Function.update_of_ne hj]
    exact h j

/-- Some handle finds the guard in the one record and nothing in its place in
the other. -/
def View.Lacks (g : Nat) (V V' : View) : Prop :=
  ∃ k r r', V k = some r ∧ V' k = some r' ∧ r.Lacks g r'

namespace Warden

variable {w : Warden} {h : Handle} {r : Record}

/-- **`w'` misses guards that `w` has**, and is like `w` in the rest. -/
structure Misses (told ps : List (Nat × Bool)) (l : List (Option Errno)) (w w' : Warden) :
    Prop where
  machine : Machine.Misses told ps l w.machine w'.machine
  records : View.Misses (missed ps l) w.store.get? w'.store.get?
  /-- A guard that is missed is the guard of a record that goes without. -/
  lacking : ∀ g ∈ missed ps l, View.Lacks g w.store.get? w'.store.get?

/-- An event that tells of no attempt may be told on both. -/
theorem Misses.tell {w w' : Warden} (hw : Misses told ps l w w') {e : Event}
    (he : e.attempt? = none) : Misses told ps l (w.tell e) (w'.tell e) :=
  ⟨hw.machine.tell he, hw.records, hw.lacking⟩

/-- Before the first attempt nothing is missed. -/
theorem misses_start (hw : w.machine.Smooth) (l : List (Option Errno)) :
    Misses w.machine.attempts [] l w (w.withMaps l) :=
  ⟨.start hw l, .refl _ _, fun _ hg => absurd hg List.not_mem_nil⟩

/-- **A record that is guarded and put back.** -/
theorem misses_modify {m : Machine} (hr : w.store.get? h = some r) (hm : m.Smooth) (s : Record)
    (below above : Bool) (l : List (Option Errno)) :
    let placed := Guard.placeSides m s below above
    let placed' := Guard.placeSides (m.withMaps l) s below above
    ∃ ps, Misses m.attempts ps l
      { w with store := w.store.modify h fun _ => placed.1, machine := placed.2 }
      { w with store := w.store.modify h fun _ => placed'.1, machine := placed'.2 } := by
  intro placed placed'
  obtain ⟨ps, hmachine, hrecord, hlacks⟩ := Guard.misses_placeSides hm s below above l
  refine ⟨ps, hmachine, ?_, fun g hg => ⟨h, placed.1, placed'.1, ?_, ?_, (hlacks g hg).1⟩⟩
  · simp only [Store.get?_modify_eq_update hr]
    exact (View.Misses.refl _ _).update hrecord h
  · rw [Store.get?_modify_eq_update hr, Function.update_self]
  · rw [Store.get?_modify_eq_update hr, Function.update_self]

/-- **A record that enters.** Its missed guards lie outside of it. -/
theorem misses_enroll (hw : w.machine.Smooth) (r : Record) (l : List (Option Errno)) :
    ∃ ps, Misses w.machine.attempts ps l (w.enroll r) ((w.withMaps l).enroll r) ∧
      ∀ g ∈ missed ps l, g < r.base ∨ r.stop pageSize ≤ g := by
  have heq : ∀ w : Warden, w.enroll r =
      let placed := Guard.placeSides w.machine r w.config.guardPagesActive
        w.config.guardPagesActive
      { w with store := (w.store.insert placed.1).2, machine := placed.2 } := by
    intro w
    unfold enroll
    cases w.config.guardPagesActive <;> rfl
  obtain ⟨ps, hmachine, hrecord, hlacks⟩ :=
    Guard.misses_placeSides hw r w.config.guardPagesActive w.config.guardPagesActive l
  rw [heq, heq]
  refine ⟨ps, ⟨hmachine, ?_, fun g hg => ⟨w.store.nextHandle, _, _, ?_, ?_, (hlacks g hg).1⟩⟩,
    fun g hg => (hlacks g hg).2⟩
  · simp only [store_withMaps, Store.get?_insert_eq_update]
    exact (View.Misses.refl _ _).update hrecord _
  · rw [Store.get?_insert_eq_update, Function.update_self]
  · rw [Store.get?_insert_eq_update]
    exact Function.update_self _ _ _

/-! ## Cuts -/

/-- **A head that is cut off.** -/
theorem misses_trimHead (hw : w.machine.Smooth) (hr : w.store.get? h = some r) (q : Record)
    (stop : Nat) (guarded : Bool) (l : List (Option Errno)) :
    ∃ ps, Misses w.machine.attempts ps l (w.trimHead h q stop guarded)
      ((w.withMaps l).trimHead h q stop guarded) := by
  have hm := hw.calls (Guard.upkeep_removeBelow w.machine q).calls
  obtain ⟨ps, hmisses⟩ := misses_modify hr hm (q.upper stop) guarded false l
  rw [Guard.attempts_removeBelow] at hmisses
  refine ⟨ps, ?_⟩
  rw [trimHead_eq, trimHead_eq, machine_withMaps, Guard.removeBelow_withMaps]
  exact hmisses.tell rfl

/-- **A tail that is cut off.** -/
theorem misses_trimTail (hw : w.machine.Smooth) (hr : w.store.get? h = some r) (q : Record)
    (start : Nat) (guarded : Bool) (l : List (Option Errno)) :
    ∃ ps, Misses w.machine.attempts ps l (w.trimTail h q start guarded)
      ((w.withMaps l).trimTail h q start guarded) := by
  have hm := hw.calls (Guard.upkeep_removeAbove w.machine q).calls
  obtain ⟨ps, hmisses⟩ := misses_modify hr hm (q.lower start) false guarded l
  rw [Guard.attempts_removeAbove] at hmisses
  refine ⟨ps, ?_⟩
  rw [trimTail_eq, trimTail_eq, machine_withMaps, Guard.removeAbove_withMaps]
  exact hmisses.tell rfl

/-- **A record that is split.** Its hole has room for two guards or gets
none. -/
theorem misses_splitRecord {start stop : Nat} (hw : w.machine.Smooth)
    (hr : w.store.get? h = some r) {q : Record} (hbase : q.base < start) (guarded : Bool)
    (l : List (Option Errno)) :
    ∃ ps, Misses w.machine.attempts ps l (w.splitRecord h q start stop guarded)
      ((w.withMaps l).splitRecord h q start stop guarded) := by
  have hroom : (guarded && decide (2 * pageSize ≤ stop - start)) = true →
      (q.lower start).stop pageSize + pageSize < (q.upper stop).base := by
    intro hroomy
    have hgap := of_decide_eq_true (Bool.and_eq_true_iff.1 hroomy).2
    have hround := roundUp_lt (start - q.base)
    simp only [Record.stop, Record.span, Record.lower, Record.upper] at *
    have hpos := pageSize_pos
    omega
  obtain ⟨ps, hmachine, hlow, hhigh, hlacks⟩ := Guard.misses_placeBetween hw hroom l
  have hne := Store.ne_nextHandle hr
  refine ⟨ps, ?_⟩
  rw [splitRecord_eq, splitRecord_eq]
  refine ⟨hmachine.tell rfl, ?_, fun g hg => ?_⟩
  · simp only [store_withMaps, machine_withMaps, Store.get?_insert_eq_update,
      Store.nextHandle_modify, Store.get?_modify_eq_update hr]
    exact ((View.Misses.refl _ _).update hlow h).update hhigh _
  · simp only [store_withMaps, machine_withMaps, Store.get?_insert_eq_update,
      Store.nextHandle_modify, Store.get?_modify_eq_update hr]
    rcases hlacks g hg with hat | hat
    · refine ⟨h, _, _, ?_, ?_, hat⟩
      · rw [Function.update_of_ne hne, Function.update_self]
      · rw [Function.update_of_ne hne, Function.update_self]
    · exact ⟨w.store.nextHandle, _, _, Function.update_self _ _ _, Function.update_self _ _ _, hat⟩

/-- **A cut**, whatever it leaves. -/
theorem misses_cut (hw : w.machine.Smooth) (h : Handle) (start stop : Nat) (guarded : Bool)
    (l : List (Option Errno)) :
    ∃ ps, Misses w.machine.attempts ps l (w.cut h start stop guarded)
      ((w.withMaps l).cut h start stop guarded) := by
  unfold cut
  rw [store_withMaps]
  split
  · exact ⟨[], misses_start hw l⟩
  · rename_i found hr
    simp only
    split
    · split
      · have hdrop := hw.calls (w.upkeep_dropRecord h (found.forgetWithin start stop)).calls
        have hmisses := misses_start hdrop l
        rw [attempts_dropRecord] at hmisses
        rw [dropRecord_withMaps]
        exact ⟨[], hmisses⟩
      · exact misses_trimHead hw hr _ stop guarded l
    · rename_i hbase
      split
      · exact misses_trimTail hw hr _ start guarded l
      · exact misses_splitRecord hw hr (Nat.lt_of_not_le hbase) guarded l

/-! ## Follow-ups -/

/-- A carve maps nothing. -/
theorem misses_carve (hw : w.machine.Smooth) (start stop : Nat) (keep : Option Handle)
    (l : List (Option Errno)) :
    Misses w.machine.attempts [] l (w.carve start stop keep)
      ((w.withMaps l).carve start stop keep) := by
  have hmisses := misses_start (hw.calls (w.upkeep_carve start stop keep).calls) l
  rwa [attempts_carve, ← carve_withMaps] at hmisses

/-- **What follows up a release.** -/
theorem misses_vacate (hw : w.machine.Smooth) (a n : Nat) (l : List (Option Errno)) :
    ∃ ps, Misses w.machine.attempts ps l (w.vacate a n) ((w.withMaps l).vacate a n) := by
  unfold vacate
  simp only [store_withMaps, config_withMaps]
  split
  · exact ⟨[], misses_carve hw _ _ _ l⟩
  · rename_i h _
    have hcarve := hw.calls (w.upkeep_carve a (a + roundUp n pageSize) (some h)).calls
    obtain ⟨ps, hmisses⟩ := misses_cut hcarve h a (a + roundUp n pageSize)
      w.config.guardPagesActive l
    rw [attempts_carve, ← carve_withMaps] at hmisses
    exact ⟨ps, hmisses⟩

/-- **What follows up a mapping.** Missed guards lie outside of it. -/
theorem misses_settle (hw : w.machine.Smooth) (q : MapRequest) (a : Nat)
    (l : List (Option Errno)) :
    ∃ ps, Misses w.machine.attempts ps l (w.settle q a) ((w.withMaps l).settle q a) ∧
      ∀ g ∈ missed ps l, g < a ∨ a + roundUp q.length pageSize ≤ g := by
  unfold settle
  rw [config_withMaps]
  have hnone : ∀ g ∈ missed [] l, g < a ∨ a + roundUp q.length pageSize ≤ g :=
    fun g hg => absurd hg List.not_mem_nil
  by_cases hcache : w.config.useMappingCache = true
  · rw [if_pos hcache, if_pos hcache]
    by_cases hanon : q.isAnonymous = true
    · rw [if_pos hanon, if_pos hanon, track_eq, track_eq]
      have hcarve := hw.calls (w.upkeep_carve a (a + roundUp q.length pageSize) none).calls
      obtain ⟨ps, hmisses, hout⟩ :=
        misses_enroll hcarve (.fresh a q.length q.rights) l
      rw [attempts_carve, ← carve_withMaps] at hmisses
      exact ⟨ps, hmisses.tell rfl, hout⟩
    · rw [if_neg hanon, if_neg hanon]
      exact ⟨[], misses_carve hw _ _ _ l, hnone⟩
  · rw [if_neg hcache, if_neg hcache]
    exact ⟨[], misses_start hw l, hnone⟩

/-- **Fresh memory may be overwritten on both.** -/
theorem Misses.poison {v v' : Warden} (hv : Misses told ps l v v') (hconfig : v'.config = v.config)
    {q : MapRequest} {a : Nat} (ha : Aligned a)
    (hout : ∀ g ∈ missed ps l, g < a ∨ a + roundUp q.length pageSize ≤ g) :
    Misses told ps l (v.poison q a) (v'.poison q a) := by
  unfold Warden.poison
  rw [hconfig]
  split
  · refine ⟨hv.machine.fill (fun g hg hin => ?_) poisonByte, hv.records, hv.lacking⟩
    -- the guard begins on a page, and so does the range
    have hg' := (hv.machine.placed g hg).1
    have hg := hout g hg
    have hround := le_roundUp q.length
    unfold Space.touched at hin
    split at hin
    · simp only [PageTable.InRange] at hin
      omega
    · simp only [PageTable.InRange, Aligned, pageOf, pageSize, roundUp] at *
      omega
  · exact hv

/-- **Guards that are put back.** -/
theorem misses_restore (hw : w.machine.Smooth) (handle : Option Handle) (below above : Bool)
    (l : List (Option Errno)) :
    ∃ ps, Misses w.machine.attempts ps l (w.restore handle below above)
      ((w.withMaps l).restore handle below above) := by
  unfold restore
  split
  · exact ⟨[], misses_start hw l⟩
  · unfold restoreGuards
    rw [store_withMaps]
    split
    · exact ⟨[], misses_start hw l⟩
    · rename_i hr
      exact misses_modify hr hw _ below above l

/-- **A record that is moved to another range.** -/
theorem misses_rehome (hw : w.machine.Smooth) (hr : w.store.get? h = some r) (base length : Nat)
    (guarded : Bool) (l : List (Option Errno)) :
    let homed := Guard.rehome w.machine r base length guarded
    let homed' := Guard.rehome (w.machine.withMaps l) r base length guarded
    ∃ ps, Misses w.machine.attempts ps l
      { w with store := w.store.modify h fun _ => homed.1, machine := homed.2 }
      { w with store := w.store.modify h fun _ => homed'.1, machine := homed'.2 } := by
  have heq : ∀ m : Machine, Guard.rehome m r base length guarded =
      Guard.placeSides (Guard.removeAll m r).2 { (Guard.removeAll m r).1 with base, length }
        guarded guarded := by
    intro m
    cases guarded <;> rfl
  have hm := hw.calls (Guard.upkeep_removeAll w.machine r).calls
  obtain ⟨ps, hmisses⟩ := misses_modify hr hm
    { (Guard.removeAll w.machine r).1 with base, length } guarded guarded l
  rw [Guard.attempts_removeAll] at hmisses
  simp only [heq, Guard.removeAll_withMaps]
  exact ⟨ps, hmisses⟩

/-- **A record that follows its mapping.** -/
theorem misses_follow (hw : w.machine.Smooth) (h : Handle) (q : MoveRequest) (moved : Nat)
    (l : List (Option Errno)) :
    ∃ ps, Misses w.machine.attempts ps l (w.follow h q moved)
      ((w.withMaps l).follow h q moved) := by
  unfold follow
  rw [store_withMaps]
  split
  · exact ⟨[], misses_start hw l⟩
  · rename_i r hr
    by_cases hwhole : r.base = q.address ∧ r.span pageSize = roundUp q.length pageSize
    · obtain ⟨ps, hmisses⟩ :=
        misses_rehome hw hr moved q.newLength w.config.guardPagesActive l
      simp only [if_pos hwhole]
      exact ⟨ps, hmisses.tell rfl⟩
    · have htold : (w.tell (.partialMove q.address q.length r.base r.length)).machine.Smooth :=
        ⟨hw.maps, hw.unmaps⟩
      obtain ⟨ps, hmisses⟩ := misses_rehome htold hr moved q.newLength w.config.guardPagesActive l
      rw [attempts_tell_of_none _ rfl] at hmisses
      simp only [if_neg hwhole]
      exact ⟨ps, hmisses.tell rfl⟩

/-- **What follows up a move.** -/
theorem misses_resettle (hw : w.machine.Smooth) (handle : Option Handle) (q : MoveRequest)
    (moved : Nat) (l : List (Option Errno)) :
    ∃ ps, Misses w.machine.attempts ps l (w.resettle handle q moved)
      ((w.withMaps l).resettle handle q moved) := by
  unfold resettle
  cases handle with
  | none => exact ⟨[], misses_carve hw _ _ _ l⟩
  | some h =>
    have hcarve := hw.calls
      (w.upkeep_carve moved (moved + roundUp q.newLength pageSize) (some h)).calls
    obtain ⟨ps, hmisses⟩ := misses_follow hcarve h q moved l
    rw [attempts_carve, ← carve_withMaps] at hmisses
    exact ⟨ps, hmisses⟩

/-! ## Requests -/

/-- **The failures of guards are not felt**: from the state `w` the one
request met no failure and the other those of `l` in its attempts to place
guards. -/
structure Unfelt {α : Type} (w : Warden) (l : List (Option Errno))
    (first second : Except Failure α × Warden) (ps : List (Nat × Bool)) : Prop where
  /-- Both answer the same, -/
  answer : second.1 = first.1
  /-- and both made the attempts `ps`. -/
  told : first.2.machine.attempts = w.machine.attempts ++ ps
  asked : second.2.machine.attempts.map Prod.fst = first.2.machine.attempts.map Prod.fst
  /-- Keys and everything else of the space but its pages are the same, -/
  rest : second.2.machine.space.unpaged = first.2.machine.space.unpaged
  /-- and so are the records, but for missed guards. -/
  records : View.Misses (missed ps l) first.2.store.get? second.2.store.get?
  /-- A guard that is missed is the guard of a record, which goes without, -/
  lacking : ∀ g ∈ missed ps l, View.Lacks g first.2.store.get? second.2.store.get?
  /-- on an inaccessible page, -/
  placed : ∀ g ∈ missed ps l, Aligned g ∧ first.2.machine.rightsAt (pageOf g) = some .noAccess
  /-- which is absent; and no other page differs. -/
  page : ∀ n, second.2.machine.pageAt n =
    if n * pageSize ∈ missed ps l then none else first.2.machine.pageAt n

/-- What a request misses of guards is not felt. -/
theorem Misses.unfelt {α : Type} {v v' : Warden} (hv : Misses w.machine.attempts ps l v v')
    (a : Except Failure α) : Unfelt w l (a, v) (a, v') ps :=
  ⟨rfl, hv.machine.told, hv.machine.asked, hv.machine.rest, hv.records, hv.lacking,
    hv.machine.placed, hv.machine.page⟩

/-- A request that asks for no guard leaves the schedule as it is. -/
theorem unfelt_of_withMaps {α : Type} {v : Warden} (hv : v.machine.attempts = w.machine.attempts)
    (a : Except Failure α) (l l' : List (Option Errno)) : Unfelt w l (a, v) (a, v.withMaps l') [] :=
  ⟨rfl, hv.trans (List.append_nil _).symm, rfl, rfl, .refl _ _,
    fun _ hg => absurd hg List.not_mem_nil, fun _ hg => absurd hg List.not_mem_nil, fun _ => rfl⟩

/-- Creating memory. -/
theorem unfelt_create (hw : w.machine.Smooth) (q : MapRequest) (l : List (Option Errno)) :
    ∃ ps, Unfelt w l (w.create q) ((w.withMaps (none :: l)).create q) ps := by
  have hvet : (w.withMaps (none :: l)).vet q = w.vet q := rfl
  rw [create_eq, create_eq, hvet]
  cases w.vet q with
  | error d => exact ⟨[], unfelt_of_withMaps (attempts_tell_of_none _ rfl) _ _ _⟩
  | ok =>
    have htold := Machine.attempts_map w.machine q
    simp only [machine_withMaps, Machine.map_withMaps hw.maps]
    rcases hmap : w.machine.map q with ⟨errno | a, m⟩ <;> rw [hmap] at htold
    · exact ⟨[], unfelt_of_withMaps htold _ _ _⟩
    · have hm := hw.calls (Machine.calls_of_map hmap)
      obtain ⟨ps, hmisses, hout⟩ := misses_settle (w := { w with machine := m }) hm q a l
      have hpoison := hmisses.poison (by rw [config_settle, config_settle]; rfl)
        (Machine.aligned_of_map hmap).1 hout
      refine ⟨ps, Misses.unfelt ?_ _⟩
      rw [← htold]
      exact hpoison

/-- Releasing it. -/
theorem unfelt_remove (hw : w.machine.Smooth) (a n : Nat) (l : List (Option Errno)) :
    ∃ ps, Unfelt w l (w.remove a n) ((w.withMaps l).remove a n) ps := by
  have htold := Machine.attempts_unmap w.machine a n
  rw [remove_eq, remove_eq]
  simp only [machine_withMaps, Machine.unmap_withMaps]
  rcases hunmap : w.machine.unmap a n with ⟨errno | ⟨⟩, m⟩ <;> rw [hunmap] at htold
  · exact ⟨[], unfelt_of_withMaps htold _ _ _⟩
  · by_cases hcache : w.config.useMappingCache = true
    · have hcache' : (w.withMaps l).config.useMappingCache = true := hcache
      simp only [if_pos hcache, if_pos hcache']
      have hm := hw.calls (Machine.calls_of_unmap hunmap)
      obtain ⟨ps, hmisses⟩ := misses_vacate (w := { w with machine := m }) hm a n l
      refine ⟨ps, Misses.unfelt ?_ _⟩
      rw [← htold]
      exact hmisses
    · have hcache' : ¬ (w.withMaps l).config.useMappingCache = true := hcache
      simp only [if_neg hcache, if_neg hcache']
      exact ⟨[], unfelt_of_withMaps htold _ _ _⟩

/-- Moving it. -/
theorem unfelt_relocate (hw : w.machine.Smooth) (q : MoveRequest) (l : List (Option Errno)) :
    ∃ ps, Unfelt w l (w.relocate q) ((w.withMaps l).relocate q) ps := by
  by_cases hcache : w.config.useMappingCache = true
  · have htold := Machine.attempts_move (w.lifted q.address).machine q
    rw [attempts_lifted] at htold
    have hlifted := hw.calls (upkeep_lifted w q.address).calls
    rw [relocate_eq w q hcache, relocate_eq (w.withMaps l) q hcache]
    simp only [lifted_withMaps, machine_withMaps, Machine.move_withMaps]
    rcases hmove : (w.lifted q.address).machine.move q with ⟨errno | moved, m⟩ <;>
      rw [hmove] at htold
    · have hm := hlifted.calls (Machine.calls_of_move hmove)
      obtain ⟨ps, hmisses⟩ := misses_restore (w := { w.lifted q.address with machine := m }) hm
        (w.store.find? q.address) (w.hasBelow q.address) (w.hasAbove q.address) l
      refine ⟨ps, Misses.unfelt ?_ _⟩
      rw [← htold]
      exact hmisses
    · have hm := hlifted.calls (Machine.calls_of_move hmove)
      obtain ⟨ps, hmisses⟩ := misses_resettle (w := { w.lifted q.address with machine := m }) hm
        (w.store.find? q.address) q moved l
      refine ⟨ps, Misses.unfelt ?_ _⟩
      rw [← htold]
      exact hmisses
  · have hcache : w.config.useMappingCache = false := Bool.not_eq_true _ ▸ hcache
    have htold := Machine.attempts_move w.machine q
    rw [relocate_eq_of_not_cache w q hcache, relocate_eq_of_not_cache (w.withMaps l) q hcache]
    simp only [machine_withMaps, Machine.move_withMaps]
    rcases hmove : w.machine.move q with ⟨errno | moved, m⟩ <;> rw [hmove] at htold
    · exact ⟨[], unfelt_of_withMaps htold _ _ _⟩
    · exact ⟨[], unfelt_of_withMaps htold _ _ _⟩

/-- Enclosing code in memory that was reserved. -/
theorem unfelt_enclose (hw : w.machine.Smooth) (a size : Nat) (code : List UInt8)
    (l : List (Option Errno)) :
    ∃ ps, Unfelt w l (w.enclose a size code) ((w.withMaps l).enclose a size code) ps := by
  have htold := (attempts_sealPages (w.machine.copy a code) a size).trans
    (Machine.attempts_copy w.machine a code)
  unfold enclose
  simp only [machine_withMaps, Machine.copy_withMaps, sealPages_withMaps]
  rcases hseal : sealPages (w.machine.copy a code) a size with ⟨f | key, m⟩ <;> rw [hseal] at htold
  · simp only [Machine.unmap_withMaps]
    exact ⟨[], unfelt_of_withMaps ((Machine.attempts_unmap m a size).trans htold) _ _ _⟩
  · simp only [isolation_withMaps]
    have hm := (hw.calls ((Machine.Calls.refl.copy a code).trans (calls_sealPages hseal))).calls
      (path_isolation m key).calls
    obtain ⟨ps, hmisses, -⟩ := misses_enroll (w := { w with machine := (isolation m key).2 }) hm
      { Record.fresh a size .exec with executeOnly := some ⟨key, (isolation m key).1⟩ } l
    refine ⟨ps, Misses.unfelt ?_ _⟩
    rw [← htold, ← attempts_isolation m key]
    exact hmisses.tell (e := .executeOnlyCreated a size code.length key) rfl

/-- Making execute-only memory. -/
theorem unfelt_makeExecuteOnly (hw : w.machine.Smooth) (size : Nat) (code : List UInt8)
    (l : List (Option Errno)) :
    ∃ ps, Unfelt w l (w.makeExecuteOnly size code)
      ((w.withMaps (none :: l)).makeExecuteOnly size code) ps := by
  have hnothing : ∀ f : Failure, ∃ ps, Unfelt w l ((.error f, w) : Except Failure Nat × Warden)
      (.error f, w.withMaps (none :: l)) ps := fun f => ⟨[], unfelt_of_withMaps rfl _ _ _⟩
  unfold makeExecuteOnly reserve
  by_cases hcache : ¬ w.config.useMappingCache
  · have hcache' : ¬ (w.withMaps (none :: l)).config.useMappingCache := hcache
    simp only [if_pos hcache, if_pos hcache']
    exact hnothing _
  · have hcache' : ¬ ¬ (w.withMaps (none :: l)).config.useMappingCache := hcache
    simp only [if_neg hcache, if_neg hcache']
    by_cases hempty : code.length = 0
    · simp only [if_pos hempty]
      exact hnothing _
    · simp only [if_neg hempty]
      by_cases hlong : size < code.length
      · simp only [if_pos hlong]
        exact hnothing _
      · have htold := Machine.attempts_map w.machine (.ofLength size .readWrite)
        simp only [if_neg hlong, machine_withMaps, Machine.map_withMaps hw.maps]
        rcases hmap : w.machine.map (.ofLength size .readWrite) with ⟨errno | a, m⟩ <;>
          rw [hmap] at htold
        · exact ⟨[], unfelt_of_withMaps htold _ _ _⟩
        · have hm := hw.calls (Machine.calls_of_map hmap)
          obtain ⟨ps, hunfelt⟩ := unfelt_enclose (w := { w with machine := m }) hm a size code l
          exact ⟨ps, { hunfelt with told := hunfelt.told.trans (congrArg (· ++ ps) htold) }⟩

/-- **A guard that cannot be placed is never felt.** Run any of the four
requests twice from one state, once without failures of mapping and once
with any of the calls for guard pages failing in any way, and not the call
that maps the memory itself. Both runs answer the same and make the same
attempts to place guards; and they leave the same records, keys and pages,
except that every guard that was placed in the first run and failed in
the second is absent there, and its record has no guard on that side.

The ranges of a request and their guards are meant to end below 2^64. At
the topmost page they do not, and there the program stops on overflow in
either run (`Pages`). -/
theorem guards_unfelt (hw : w.machine.Smooth) (l : List (Option Errno)) :
    (∀ q, ∃ ps, Unfelt w l (w.create q) ((w.withMaps (none :: l)).create q) ps) ∧
      (∀ address length, ∃ ps,
        Unfelt w l (w.remove address length) ((w.withMaps l).remove address length) ps) ∧
      (∀ q, ∃ ps, Unfelt w l (w.relocate q) ((w.withMaps l).relocate q) ps) ∧
      ∀ size code, ∃ ps, Unfelt w l (w.makeExecuteOnly size code)
        ((w.withMaps (none :: l)).makeExecuteOnly size code) ps :=
  ⟨fun q => unfelt_create hw q l, fun address length => unfelt_remove hw address length l,
    fun q => unfelt_relocate hw q l, fun size code => unfelt_makeExecuteOnly hw size code l⟩

/-- Two pages are released in the middle of five, beside three neighbours.
Where only the second of the two guards of the hole fails, the upper part
goes without it. -/
theorem guards_unfelt_hole :
    let w := (neighbours.create ⟨0, 20000, .readWrite, .privateAnonymous, -1, 0⟩).2
    let l := [none, some Errno.nomem]
    let ps := [(0x7effffff1000, true), (0x7effffff2000, true)]
    let first := w.remove 0x7effffff1000 8192
    let second := (w.withMaps l).remove 0x7effffff1000 8192
    first.1 = .ok () ∧ missed ps l = [0x7effffff2000] ∧ Unfelt w l first second ps := by
  intro w l ps first second
  have hw : w.machine.Smooth := by
    have hstart : Machine.Smooth { space := .emptyWithKeys } := ⟨rfl, rfl⟩
    have hcreate := calls_perform neighbours
      (.create ⟨0, 20000, .readWrite, .privateAnonymous, -1, 0⟩)
    exact (hstart.calls calls_neighbours).calls hcreate
  have htold : first.2.machine.attempts = w.machine.attempts ++ ps := by decide +kernel
  obtain ⟨qs, hunfelt⟩ := (guards_unfelt hw l).2.1 0x7effffff1000 8192
  obtain rfl : qs = ps := List.append_cancel_left (hunfelt.told.symm.trans htold)
  exact ⟨rfl, rfl, hunfelt⟩

end Warden

end PageWarden
