import PageWarden.Proofs.FollowUp
/-!
# Cuts — what an operation takes out of records, one after another

An operation that takes pages over cuts them out of records, one record
after another, and each cut finds what the one before it left.
`Warden.cuts` lists the cuts of an operation in order, each together with
the warden that it finds (`Cut`).

That these are the wardens the operation comes by is what a trail says
(`Trail`): it leads from cut to cut, and nothing is done in between but to
tell. The cuts of a carve and those of a release of pages are trails to
the warden they leave (`trail_carve`, `trail_vacate`), so the cuts of every
operation are made on its way, and no cut is left out: before the first
one no record changes but for its guards, and what is recorded in the end
is what the last one left, all but one record (`traverses_cuts`). What each
cut keeps is kept by induction on the trail.
-/

namespace PageWarden

/-- **The records of `t` are records of `s`**, all but one at most: under the
same handles, and guards aside. -/
def Store.AllButOne (s t : Store) : Prop :=
  ∃ k, ∀ h r, h ≠ k → t.bare? h = some r → s.bare? h = some r

/-- Where one handle was written to, all others find what they did. -/
theorem Store.AllButOne.of_update {s t : Store} {k : Handle} {x : Option Record}
    (ht : t.bare? = Function.update s.bare? k x) : s.AllButOne t := by
  refine ⟨k, fun h r hne hr => ?_⟩
  rwa [ht, Function.update_of_ne hne] at hr

/-- Where nothing was written, so does every handle. -/
theorem Store.AllButOne.of_eq {s t : Store} (ht : t.bare? = s.bare?) : s.AllButOne t :=
  ⟨s.nextHandle, fun _ _ _ hr => ht ▸ hr⟩

/-- A cut, as `Warden.cut` is asked for it, and the warden that it finds. -/
structure Cut where
  warden : Warden
  handle : Handle
  start : Nat
  stop : Nat
  guarded : Bool

/-- The warden that the cut leaves. -/
def Cut.result (c : Cut) : Warden := c.warden.cut c.handle c.start c.stop c.guarded

/-- **The trail**: from one warden the cuts lead to another, each of them
made where the one before it left off, and between them things are told. -/
inductive Trail : Warden → List Cut → Warden → Prop
  | done {w : Warden} : Trail w [] w
  | tell {w v : Warden} {cuts : List Cut} {e : Event} (he : e.placed? = none) :
      Trail (w.tell e) cuts v → Trail w cuts v
  | cut {c : Cut} {cuts : List Cut} {v : Warden} :
      Trail c.result cuts v → Trail c.warden (c :: cuts) v

namespace Trail

variable {u v w : Warden} {cuts more : List Cut}

/-- One trail after another is a trail. -/
theorem append (h : Trail u cuts v) (h' : Trail v more w) : Trail u (cuts ++ more) w := by
  induction h with
  | done => exact h'
  | tell he _ ih => exact (ih h').tell he
  | cut _ ih => exact (ih h').cut

/-- Along a trail records stay well formed, so each cut finds them so. -/
theorem shaped_of_mem (h : Trail u cuts v) (hs : u.store.Shaped)
    (hstop : ∀ c ∈ cuts, Aligned c.stop) : ∀ c ∈ cuts, c.warden.store.Shaped := by
  induction h with
  | done => exact List.forall_mem_nil _
  | tell _ _ ih => exact ih hs hstop
  | cut _ ih =>
    obtain ⟨hc, hrest⟩ := List.forall_mem_cons.1 hstop
    exact List.forall_mem_cons.2 ⟨hs, ih (Warden.shaped_cut hs hc _ _) hrest⟩

end Trail

namespace Warden

/-! ## The cuts of an operation -/

/-- The cut made in a record on account of someone else, if it is there. -/
def foreignCuts (w : Warden) (start stop : Nat) (h : Handle) : List Cut :=
  match w.store.get? h with
  | none => []
  | some r => [⟨w.tell (.changedBehind r.base r.length), h, start, stop, false⟩]

/-- Such cuts one after the other. -/
def foreignCutsAll (start stop : Nat) : List Handle → Warden → List Cut
  | [], _ => []
  | h :: rest, w =>
    w.foreignCuts start stop h ++ foreignCutsAll start stop rest (w.cutForeign start stop h)

/-- The cuts of a carve. -/
def carveCuts (w : Warden) (start stop : Nat) (keep : Option Handle) : List Cut :=
  let w := w.forgetGuards start stop
  foreignCutsAll start stop
    ((w.store.overlapping start stop pageSize).filter fun h => some h ≠ keep) w

/-- The cuts that follow up a release of pages: the record at their start
comes last. -/
def vacateCuts (w : Warden) (address length : Nat) : List Cut :=
  let stop := address + roundUp length pageSize
  match w.store.find? address with
  | none => w.carveCuts address stop none
  | some h =>
    w.carveCuts address stop (some h) ++
      [⟨w.carve address stop (some h), h, address, stop, w.config.guardPagesActive⟩]

/-- The cuts of a creation. -/
def createCuts (w : Warden) (q : MapRequest) : List Cut :=
  match w.vet q with
  | .error _ => []
  | .ok () =>
    match w.machine.map q with
    | (.error _, _) => []
    | (.ok a, m) =>
      if w.config.useMappingCache then
        carveCuts { w with machine := m } a (a + roundUp q.length pageSize) none
      else []

/-- The cuts of a release of pages. -/
def removeCuts (w : Warden) (address length : Nat) : List Cut :=
  match w.machine.unmap address length with
  | (.error _, _) => []
  | (.ok (), m) =>
    if w.config.useMappingCache then vacateCuts { w with machine := m } address length else []

/-- The cuts of a move. -/
def relocateCuts (w : Warden) (q : MoveRequest) : List Cut :=
  if w.config.useMappingCache then
    match (w.lifted q.address).machine.move q with
    | (.error _, _) => []
    | (.ok moved, m) =>
      carveCuts { w.lifted q.address with machine := m } moved
        (moved + roundUp q.newLength pageSize) (w.store.find? q.address)
  else []

/-- **The cuts of an operation**, in order. -/
def cuts (w : Warden) : Operation → List Cut
  | .create q => w.createCuts q
  | .remove a l => w.removeCuts a l
  | .relocate q => w.relocateCuts q
  | .reprotect .. | .makeExecuteOnly .. | .releaseExecuteOnly .. | .teardown => []

variable {v w : Warden} {start stop address length : Nat} {keep : Option Handle} {c : Cut}

/-! ## They are made on its way -/

/-- The cut made on account of someone else is a trail. -/
theorem trail_cutForeign (w : Warden) (start stop : Nat) (h : Handle) :
    Trail w (w.foreignCuts start stop h) (w.cutForeign start stop h) := by
  unfold foreignCuts cutForeign
  cases w.store.get? h with
  | none => exact .done
  | some r =>
    exact .tell rfl
      (.cut (c := ⟨w.tell (.changedBehind r.base r.length), h, start, stop, false⟩) .done)

/-- So are such cuts one after the other: the fold of a carve. -/
theorem trail_foldl (start stop : Nat) (l : List Handle) (w : Warden) :
    Trail w (foreignCutsAll start stop l w)
      (l.foldl (fun w h => w.cutForeign start stop h) w) := by
  induction l generalizing w with
  | nil => exact .done
  | cons h l ih => exact (trail_cutForeign w start stop h).append (ih _)

/-- **The cuts of a carve lead to what it leaves**, once guards are forgotten. -/
theorem trail_carve (w : Warden) (start stop : Nat) (keep : Option Handle) :
    Trail (w.forgetGuards start stop) (w.carveCuts start stop keep) (w.carve start stop keep) :=
  trail_foldl start stop _ _

/-- **So do those that follow up a release of pages.** -/
theorem trail_vacate (w : Warden) (address length : Nat) :
    Trail (w.forgetGuards address (address + roundUp length pageSize))
      (w.vacateCuts address length) (w.vacate address length) := by
  unfold vacateCuts vacate
  cases w.store.find? address with
  | none => exact trail_carve _ _ _ _
  | some h =>
    exact (trail_carve _ _ _ _).append (.cut
      (c := ⟨w.carve address (address + roundUp length pageSize) (some h), h, address,
        address + roundUp length pageSize, w.config.guardPagesActive⟩) .done)

/-- Cuts on account of someone else end where the range does that they are
made for. -/
theorem stop_of_mem_foreignCutsAll {l : List Handle} (hc : c ∈ foreignCutsAll start stop l w) :
    c.stop = stop := by
  induction l generalizing w with
  | nil => cases hc
  | cons h l ih =>
    rcases List.mem_append.1 hc with hfirst | hrest
    · unfold foreignCuts at hfirst
      split at hfirst
      · cases hfirst
      · rw [List.mem_singleton.1 hfirst]
    · exact ih hrest

/-- So do all cuts of a carve. -/
theorem stop_of_mem_carveCuts (hc : c ∈ w.carveCuts start stop keep) : c.stop = stop :=
  stop_of_mem_foreignCutsAll hc

/-- And those that follow up a release of pages. -/
theorem stop_of_mem_vacateCuts (hc : c ∈ w.vacateCuts address length) :
    c.stop = address + roundUp length pageSize := by
  unfold vacateCuts at hc
  split at hc
  · exact stop_of_mem_carveCuts hc
  · rcases List.mem_append.1 hc with hcarve | hlast
    · exact stop_of_mem_carveCuts hcarve
    · rw [List.mem_singleton.1 hlast]

/-- **On the way from `w` to `v` the cuts are made, and no others.** By calls,
and by guards that are lifted or forgotten, `w` comes to where the trail of
the cuts begins; from where it ends calls lead to `v`, whose records are as
they are there, all but one; and each cut ends at a page. -/
def Traverses (w : Warden) (cuts : List Cut) (v : Warden) : Prop :=
  ∃ first last, first.store.bare? = w.store.bare? ∧ w.machine.Calls first.machine ∧
    Trail first cuts last ∧ last.machine.Calls v.machine ∧ last.store.AllButOne v.store ∧
    ∀ c ∈ cuts, Aligned c.stop

/-- A way without cuts. -/
theorem traverses_nil (h : w.machine.Calls v.machine) (hrest : w.store.AllButOne v.store) :
    w.Traverses [] v :=
  ⟨w, w, rfl, .refl, .done, h, hrest, List.forall_mem_nil _⟩

/-- Nothing is cut behind the carve of a creation: a record may enter. -/
theorem allButOne_settle {q : MapRequest} {a : Nat} (hcache : w.config.useMappingCache = true) :
    (w.carve a (a + roundUp q.length pageSize) none).store.AllButOne (w.settle q a).store := by
  unfold settle
  rw [if_pos hcache]
  split
  · rw [track_eq]
    exact .of_update (bare?_enroll _ _)
  · exact .of_eq rfl

/-- The cuts of a creation are made on its way. -/
theorem traverses_create (w : Warden) (q : MapRequest) :
    w.Traverses (w.createCuts q) (w.create q).2 := by
  rw [create_eq]
  unfold createCuts
  cases w.vet q with
  | error d => exact traverses_nil (Machine.Calls.refl.tell _) (.of_eq rfl)
  | ok =>
    rcases hmap : w.machine.map q with ⟨errno | a, m⟩
    · exact traverses_nil (Machine.calls_of_map hmap) (.of_eq rfl)
    · have hmapped := Machine.calls_of_map hmap
      have hpoisoned := alike_poison (settle { w with machine := m } q a) q a
      simp only
      split
      · rename_i hcache
        refine ⟨_, _, bare?_forgetGuards { w with machine := m } _ _, hmapped,
          trail_carve _ _ _ _, Machine.Calls.trans ?_ hpoisoned.calls, ?_, fun c hc => ?_⟩
        · -- what comes behind the carve is the guards of the record that enters
          unfold settle
          rw [if_pos hcache]
          split
          · rw [track_eq]
            exact (upkeep_enroll _ _).calls.tell _
          · exact .refl
        · rw [hpoisoned.store]
          exact allButOne_settle hcache
        · rw [stop_of_mem_carveCuts hc]
          exact (Machine.aligned_of_map hmap).1.add_roundUp _
      · rename_i hcache
        have hsettled := upkeep_settle { w with machine := m } q a
        refine traverses_nil ((hmapped.trans hsettled.calls).trans hpoisoned.calls) (.of_eq ?_)
        rw [hpoisoned.store]
        unfold settle
        rw [if_neg hcache]

/-- So are those of a release of pages. -/
theorem traverses_remove (w : Warden) (a l : Nat) :
    w.Traverses (w.removeCuts a l) (w.remove a l).2 := by
  rw [remove_eq]
  unfold removeCuts
  rcases hunmap : w.machine.unmap a l with ⟨errno | ⟨⟩, m⟩
  · exact traverses_nil (Machine.calls_of_unmap hunmap) (.of_eq rfl)
  · have hunmapped := Machine.calls_of_unmap hunmap
    simp only
    split
    · refine ⟨_, _, bare?_forgetGuards { w with machine := m } _ _, hunmapped,
        trail_vacate _ _ _, .refl, .of_eq rfl, fun c hc => ?_⟩
      rw [stop_of_mem_vacateCuts hc]
      exact (Machine.aligned_of_unmap hunmap).1.add_roundUp _
    · exact traverses_nil hunmapped (.of_eq rfl)

/-- Nothing is cut behind the carve of a move: the record that was found
goes to the new range. -/
theorem allButOne_resettle (w : Warden) (handle : Option Handle) (q : MoveRequest) (moved : Nat) :
    (w.carve moved (moved + roundUp q.newLength pageSize) handle).store.AllButOne
      (w.resettle handle q moved).store := by
  unfold resettle
  cases handle with
  | none => exact .of_eq rfl
  | some h =>
    simp only
    generalize w.carve moved (moved + roundUp q.newLength pageSize) (some h) = u
    cases hr : u.store.get? h with
    | none =>
      unfold follow
      rw [hr]
      exact .of_eq rfl
    | some r => exact .of_update (bare?_follow hr q moved)

/-- And those of a move. -/
theorem traverses_relocate (w : Warden) (q : MoveRequest) :
    w.Traverses (w.relocateCuts q) (w.relocate q).2 := by
  have hcalls : w.machine.Calls (w.relocate q).2.machine := calls_perform w (.relocate q)
  unfold relocateCuts
  split
  · rename_i hcache
    have hlifted := (upkeep_lifted w q.address).calls
    rcases hmove : (w.lifted q.address).machine.move q with ⟨errno | moved, m⟩
    · -- guards were lifted and put back, and guards are all that this shows in
      refine traverses_nil hcalls (.of_eq ?_)
      rw [relocate_of_move_error hcache hmove, bare?_restore]
      exact bare?_lifted w q.address
    · rw [(relocate_of_move hcache hmove).2]
      refine ⟨_, _, ?_, hlifted.trans (Machine.calls_of_move hmove), trail_carve _ _ _ _, ?_,
        allButOne_resettle _ _ _ _, fun c hc => ?_⟩
      · exact (bare?_forgetGuards _ _ _).trans (bare?_lifted w q.address)
      · unfold resettle
        cases w.store.find? q.address with
        | none => exact .refl
        | some h => exact (upkeep_follow _ _ _ _).calls
      · rw [stop_of_mem_carveCuts hc]
        exact (Machine.aligned_of_move hmove).2.1.add_roundUp _
  · rename_i hcache
    refine traverses_nil hcalls (.of_eq ?_)
    rw [(w.store_relocate_of_not_cache q (Bool.eq_false_of_not_eq_true hcache)).1]

/-- A change of protection rewrites one record. -/
theorem allButOne_reprotect (w : Warden) (a l : Nat) (ρ : Rights) :
    w.store.AllButOne (w.reprotect a l ρ).2.store := by
  rcases w.reprotect_cases a l ρ with ⟨-, hsame⟩ | ⟨m, -, -, hnoted⟩
  · exact .of_eq (congrArg Store.bare? hsame.store)
  · rw [hnoted]
    cases hfound : found { w with machine := m } a with
    | none =>
      rw [note_of_not_found hfound]
      exact .of_eq rfl
    | some h =>
      obtain ⟨r, hr⟩ := exists_of_found hfound
      exact .of_update (bare?_note hfound hr)

/-- One record enters where execute-only memory is made. -/
theorem allButOne_makeExecuteOnly (w : Warden) (size : Nat) (code : List UInt8) :
    w.store.AllButOne (w.makeExecuteOnly size code).2.store := by
  rcases w.makeExecuteOnly_cases size code with
    ⟨-, hsame, -⟩ | ⟨a, x, m, -, -, -, -, -, -, -, hentered⟩
  · exact .of_eq (congrArg Store.bare? hsame)
  · rw [hentered.store]
    exact .of_update (bare?_enroll _ _)

/-- And one leaves where it is released. -/
theorem allButOne_releaseExecuteOnly (w : Warden) (a l : Nat) :
    w.store.AllButOne (w.releaseExecuteOnly a l).2.store := by
  rcases w.releaseExecuteOnly_cases a l with
    ⟨-, hsame⟩ | ⟨h, r, t, m, o, m', -, -, hremove, -, -, -, -, hleft, -⟩
  · exact .of_eq (congrArg Store.bare? hsame.store)
  · rw [hleft]
    exact .of_update (Store.bare?_remove hremove)

/-- **The cuts of an operation are made on its way, and no others.** -/
theorem traverses_cuts (w : Warden) (op : Operation) :
    w.Traverses (w.cuts op) (w.perform op).2 := by
  cases op with
  | create q => exact traverses_create w q
  | remove a l => exact traverses_remove w a l
  | relocate q => exact traverses_relocate w q
  | reprotect a l ρ => exact traverses_nil (calls_perform w _) (allButOne_reprotect w a l ρ)
  | makeExecuteOnly s c => exact traverses_nil (calls_perform w _) (allButOne_makeExecuteOnly w s c)
  | releaseExecuteOnly a l =>
    exact traverses_nil (calls_perform w _) (allButOne_releaseExecuteOnly w a l)
  | teardown =>
    -- no record is left that could have changed
    refine traverses_nil (calls_perform w _) ⟨w.store.nextHandle, fun h r _ hr => ?_⟩
    cases hr

end Warden

end PageWarden
