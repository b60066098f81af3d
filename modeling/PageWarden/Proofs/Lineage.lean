import PageWarden.Proofs.FollowUp
/-!
# Lineage — where a record's history comes from

A lineage remembers for each record every protection it was ever given,
the latest first, and the part of a record that is split off begins with
the lineage of the record it came from. It is kept beside the warden and
never read from the records (`Lineage.after`): a new mapping begins with
the protection it was made with, a change of protection adds one, and
nothing else does.

What the records say of themselves is true to it (`Faithful`): the
history is the union of the lineage, and the present protection is its
latest entry. So the transition rules, which read the history, decide as
if they had seen it all.
-/

namespace PageWarden

namespace Rights

/-- What any of the rights allows. -/
def unionAll (l : List Rights) : Rights := l.foldr union noAccess

@[simp] theorem unionAll_nil : unionAll [] = noAccess := rfl

@[simp] theorem unionAll_cons (r : Rights) (l : List Rights) :
    unionAll (r :: l) = r.union (unionAll l) := rfl

/-- The sides of a union may be exchanged. -/
theorem union_comm (r s : Rights) : r.union s = s.union r :=
  congrArg Rights.mk (BitVec.or_comm _ _)

/-- Nothing is added by no access. -/
theorem union_noAccess (r : Rights) : r.union noAccess = r :=
  congrArg Rights.mk (BitVec.or_zero)

/-- The rights that allow the one thing bit `i` stands for. -/
def single (i : Nat) : Rights := ⟨BitVec.twoPow 32 i⟩

/-- One bit is allowed when it is set. -/
theorem has_single {r : Rights} {i : Nat} (hi : i < 32) :
    r.has (single i) = true ↔ r.bits.getLsbD i = true := by
  rw [has_iff]
  simp only [single, BitVec.getLsbD_twoPow, Bool.and_eq_true, decide_eq_true_eq]
  constructor
  · exact fun h => h i ⟨hi, rfl⟩
  · rintro h j ⟨-, rfl⟩
    exact h

/-- One bit is in the union of a list when it is in some entry. -/
theorem unionAll_has_single {l : List Rights} {i : Nat} (hi : i < 32) :
    (unionAll l).has (single i) = true ↔ ∃ s ∈ l, s.has (single i) = true := by
  simp only [has_single hi]
  induction l with
  | nil => simp [noAccess]
  | cons s l ih =>
    rw [unionAll_cons, union, BitVec.getLsbD_or, Bool.or_eq_true, ih]
    simp

theorem write_eq_single : write = single 1 := by decide

theorem exec_eq_single : exec = single 2 := by decide

end Rights

/-- For each record the protections it was given, the latest first. -/
abbrev Lineage := Handle → List Rights

/-- The records are true to a lineage. -/
def Faithful (l : Lineage) (s : Store) : Prop :=
  ∀ h r, s.get? h = some r → r.granted = .unionAll (l h) ∧ (l h).head? = some r.current

namespace Lineage

variable {l : Lineage} {w : Warden} {h : Handle} {r : Record} {start stop : Nat}

/-! ## Following the store -/

/-- A record that enters begins with what it was made with. -/
def enroll (l : Lineage) (s : Store) (rights : Rights) : Lineage :=
  Function.update l s.nextHandle [rights]

/-- The part that a cut splits off, if it does, begins with the lineage of
the record that is cut. -/
def cut (l : Lineage) (w : Warden) (h : Handle) (start stop : Nat) (guarded : Bool) : Lineage :=
  if ((w.cut h start stop guarded).store.get? w.store.nextHandle).isSome then
    Function.update l w.store.nextHandle (l h)
  else l

/-- One cut after the other. -/
def cutAll (start stop : Nat) : List Handle → Warden → Lineage → Lineage
  | [], _, l => l
  | h :: rest, w, l =>
    cutAll start stop rest (w.cutForeign start stop h)
      (match w.store.get? h with
        | none => l
        | some r => l.cut (w.tell (.changedBehind r.base r.length)) h start stop false)

/-- The cuts of a carve. -/
def carve (l : Lineage) (w : Warden) (start stop : Nat) (keep : Option Handle) : Lineage :=
  let w := w.forgetGuards start stop
  l.cutAll start stop ((w.store.overlapping start stop pageSize).filter fun h => some h ≠ keep) w

/-- Following up a mapping, the new record begins with its protection. -/
def settle (l : Lineage) (w : Warden) (q : MapRequest) (address : Nat) : Lineage :=
  if w.config.useMappingCache then
    let stop := address + roundUp q.length pageSize
    let carved := l.carve w address stop none
    if q.isAnonymous then carved.enroll (w.carve address stop none).store q.rights else carved
  else l

/-- Following up a release, parts that are split off keep the lineage. -/
def vacate (l : Lineage) (w : Warden) (address length : Nat) : Lineage :=
  let stop := address + roundUp length pageSize
  match w.store.find? address with
  | none => l.carve w address stop none
  | some h =>
    (l.carve w address stop (some h)).cut (w.carve address stop (some h)) h address stop
      w.config.guardPagesActive

/-- A change of protection at `address` is added to the record found there. -/
def note (l : Lineage) (w : Warden) (address : Nat) (rights : Rights) : Lineage :=
  match w.found address with
  | none => l
  | some h => Function.update l h (rights :: l h)

/-- The lineage after an operation, from the lineage before it. -/
def after (l : Lineage) (w : Warden) : Operation → Lineage
  | .create q =>
    match (w.create q).1 with
    | .error _ => l
    | .ok a => l.settle { w with machine := (w.machine.map q).2 } q a
  | .remove a length =>
    match (w.remove a length).1 with
    | .error _ => l
    | .ok () => l.vacate { w with machine := (w.machine.unmap a length).2 } a length
  | .reprotect a length rights =>
    match (w.reprotect a length rights).1 with
    | .error _ => l
    | .ok () => l.note w a rights
  | .relocate q =>
    match (w.relocate q).1 with
    | .error _ => l
    | .ok moved =>
      l.carve { w.lifted q.address with machine := ((w.lifted q.address).machine.move q).2 }
        moved (moved + roundUp q.newLength pageSize) (w.store.find? q.address)
  | .makeExecuteOnly size code =>
    match (w.makeExecuteOnly size code).1 with
    | .error _ => l
    | .ok _ => l.enroll w.store .exec
  | .releaseExecuteOnly _ _ => l
  | .teardown => fun _ => []

/-- The lineage after a run, from the lineage before it. -/
def along (l : Lineage) (w : Warden) : List Operation → Lineage
  | [] => l
  | op :: ops => along (l.after w op) (w.perform op).2 ops

end Lineage

/-! ## The records are true to it -/

variable {l : Lineage} {w : Warden} {h : Handle} {r : Record} {start stop : Nat}

/-- Being true to a lineage is a matter of the records without guards. -/
theorem faithful_iff {s : Store} :
    Faithful l s ↔ ∀ h q, s.bare? h = some q →
      q.granted = .unionAll (l h) ∧ (l h).head? = some q.current := by
  constructor
  · intro hl h q hq
    obtain ⟨r, hr, rfl⟩ := Store.exists_get?_of_bare? hq
    exact hl h r hr
  · intro hl h r hr
    exact hl h r.bare (Store.bare?_of_get? hr)

/-- Guards have no part in it. -/
theorem Faithful.congr {s t : Store} (hl : Faithful l s) (hst : t.bare? = s.bare?) :
    Faithful l t := by
  rw [faithful_iff] at hl ⊢
  rw [hst]
  exact hl

/-- A record that enters is true to its own beginning. -/
theorem Faithful.enroll {s t : Store} {q : Record} (hl : Faithful l s)
    (hq : q.granted = q.current)
    (ht : t.bare? = Function.update s.bare? s.nextHandle (some q)) :
    Faithful (l.enroll s q.current) t := by
  rw [faithful_iff] at hl ⊢
  intro k o ho
  unfold Lineage.enroll
  rw [ht] at ho
  by_cases hk : k = s.nextHandle
  · subst hk
    rw [Function.update_self] at ho ⊢
    cases ho
    rw [hq, Rights.unionAll_cons, Rights.unionAll_nil, Rights.union_noAccess]
    exact ⟨rfl, rfl⟩
  · rw [Function.update_of_ne hk] at ho ⊢
    exact hl k o ho

/-- A cut adds to the lineage at the next handle only. -/
theorem Lineage.cut_of_ne {k : Handle} (hk : k ≠ w.store.nextHandle) (l : Lineage) (h : Handle)
    (start stop : Nat) (guarded : Bool) : l.cut w h start stop guarded k = l k := by
  unfold Lineage.cut
  split
  · exact Function.update_of_ne hk _ _
  · rfl

/-- **A cut keeps the records true**: each part has the lineage of the
record it came from. -/
theorem Faithful.cut (hl : Faithful l w.store) (h : Handle) (start stop : Nat) (guarded : Bool) :
    Faithful (l.cut w h start stop guarded) (w.cut h start stop guarded).store := by
  cases hr : w.store.get? h with
  | none =>
    have hcut : w.cut h start stop guarded = w := by
      unfold Warden.cut
      rw [hr]
    unfold Lineage.cut
    rw [hcut, Store.get?_nextHandle]
    exact hl
  | some r =>
    rw [faithful_iff] at hl ⊢
    have hpart : ∀ q, r.bare.PartOf start stop q → q.granted = .unionAll (l h) ∧
        (l h).head? = some q.current := by
      intro q hq
      rw [hq.granted, hq.current]
      exact hl h r.bare (Store.bare?_of_get? hr)
    intro k q hq
    rcases (Warden.bare?_cut_eq_some_iff hr guarded).1 hq with
      ⟨rfl, hkept⟩ | ⟨rfl, hsplit⟩ | ⟨-, hold⟩
    · rw [Lineage.cut_of_ne (Store.ne_nextHandle hr)]
      exact hpart q (Record.partOf_iff.2 (Or.inl hkept))
    · obtain ⟨o, ho, -⟩ := Store.exists_get?_of_bare? hq
      unfold Lineage.cut
      rw [ho, Option.isSome_some, if_pos rfl, Function.update_self]
      exact hpart q (Record.partOf_iff.2 (Or.inr hsplit))
    · -- another record was there before the cut, so its handle is not the new one
      have hne : k ≠ w.store.nextHandle := by
        rintro rfl
        rw [Store.bare?_nextHandle] at hold
        cases hold
      rw [Lineage.cut_of_ne hne]
      exact hl k q hold

/-- A carve keeps the records true. -/
theorem Faithful.carve (hl : Faithful l w.store) (start stop : Nat) (keep : Option Handle) :
    Faithful (l.carve w start stop keep) (w.carve start stop keep).store := by
  -- the lineage so far, and that the cuts still to come end in the one of the carve
  have hfold : ∃ l', Faithful l' (w.carve start stop keep).store ∧
      Lineage.cutAll start stop [] (w.carve start stop keep) l' = l.carve w start stop keep := by
    refine Warden.carve_induction (motive := fun rest v => ∃ l', Faithful l' v.store ∧
      Lineage.cutAll start stop rest v l' = l.carve w start stop keep) ?_ ?_
    · exact ⟨l, hl.congr (Warden.bare?_forgetGuards w start stop), rfl⟩
    · rintro v h r rest ⟨l', hl', hend⟩ hr _ _
      refine ⟨l'.cut (v.tell _) h start stop false,
        Faithful.cut (w := v.tell _) hl' h start stop false, ?_⟩
      rw [← hend, Lineage.cutAll, Warden.cutForeign_of_get? hr, hr]
  obtain ⟨l', hl', hend⟩ := hfold
  rw [← hend]
  exact hl'

/-! ## One operation -/

/-- Following up a mapping keeps the records true. -/
theorem Faithful.settle (hl : Faithful l w.store) (q : MapRequest) (a : Nat) :
    Faithful (l.settle w q a) (w.settle q a).store := by
  have hcarve := hl.carve a (a + roundUp q.length pageSize) none
  unfold Lineage.settle Warden.settle
  split
  · split
    · have henrolled := hcarve.enroll rfl
        (Warden.bare?_enroll (w.carve a (a + roundUp q.length pageSize) none)
          (.fresh a q.length q.rights))
      rw [(Warden.alike_track _ _ _ _).store]
      exact henrolled
    · exact hcarve
  · exact hl

/-- Following up a release keeps the records true. -/
theorem Faithful.vacate (hl : Faithful l w.store) (a length : Nat) :
    Faithful (l.vacate w a length) (w.vacate a length).store := by
  unfold Lineage.vacate Warden.vacate
  cases w.store.find? a with
  | none => exact hl.carve _ _ none
  | some h => exact (hl.carve _ _ (some h)).cut h _ _ _

/-- Noting a protection adds it to the lineage and to the record. -/
theorem Faithful.note (hl : Faithful l w.store) (a length : Nat) (ρ : Rights) :
    Faithful (l.note w a ρ) (w.note a length ρ).store := by
  unfold Lineage.note Warden.note
  cases hfound : w.found a with
  | none => exact hl
  | some h =>
    obtain ⟨r, hr⟩ := Warden.exists_of_found hfound
    show Faithful (Function.update l h (ρ :: l h)) (w.noteProtection h a length ρ).store
    intro k q hq
    rw [(w.noteProtection_of_get? hr a length ρ).1] at hq
    by_cases hk : k = h
    · subst hk
      rw [Function.update_self] at hq ⊢
      cases hq
      refine ⟨?_, rfl⟩
      rw [Rights.unionAll_cons, ← (hl k r hr).1, Rights.union_comm]
      rfl
    · rw [Function.update_of_ne hk] at hq ⊢
      exact hl k q hq

/-- Following up a move, the record that moves keeps its lineage. -/
theorem Faithful.resettle (hl : Faithful l w.store) (found : Option Handle) (q : MoveRequest)
    (moved : Nat) :
    Faithful (l.carve w moved (moved + roundUp q.newLength pageSize) found)
      (w.resettle found q moved).store := by
  have hcarve := hl.carve moved (moved + roundUp q.newLength pageSize) found
  unfold Warden.resettle
  cases found with
  | none => exact hcarve
  | some h =>
    cases hr : (w.carve moved (moved + roundUp q.newLength pageSize) (some h)).store.get? h with
    | none =>
      unfold Warden.follow
      simp only [hr]
      exact hcarve
    | some r =>
      rw [faithful_iff]
      intro k o ho
      simp only at ho
      rw [Warden.bare?_follow hr q moved] at ho
      by_cases hk : k = h
      · subst hk
        rw [Function.update_self] at ho
        cases ho
        exact hcarve k r hr
      · rw [Function.update_of_ne hk] at ho
        exact faithful_iff.1 hcarve k o ho

/-- **One operation keeps the records true to their lineage.** -/
theorem Faithful.perform (hl : Faithful l w.store)
    (hcache : w.config.useMappingCache = true) (op : Operation) :
    Faithful (l.after w op) (w.perform op).2.store := by
  cases op with
  | create q =>
    show Faithful (l.after w (.create q)) (w.create q).2.store
    rcases w.create_cases q with ⟨⟨f, hf⟩, h⟩ | ⟨a, m, hmap, hok, h⟩
    · simp only [Lineage.after, hf, h.store]
      exact hl
    · simp only [Lineage.after, hok, hmap, h.store]
      exact Faithful.settle (w := { w with machine := m }) hl q a
  | remove a length =>
    show Faithful (l.after w (.remove a length)) (w.remove a length).2.store
    rcases w.remove_cases a length with ⟨⟨f, hf⟩, h⟩ | ⟨m, hunmap, hok, h⟩
    · simp only [Lineage.after, hf, h.store]
      exact hl
    · simp only [Lineage.after, hok, hunmap, h, if_pos hcache]
      exact Faithful.vacate (w := { w with machine := m }) hl a length
  | reprotect a length ρ =>
    show Faithful (l.after w (.reprotect a length ρ)) (w.reprotect a length ρ).2.store
    rcases w.reprotect_cases a length ρ with ⟨⟨f, hf⟩, h⟩ | ⟨m, -, hok, h⟩
    · simp only [Lineage.after, hf, h.store]
      exact hl
    · simp only [Lineage.after, hok, h]
      exact Faithful.note (w := { w with machine := m }) hl a length ρ
  | relocate q =>
    show Faithful (l.after w (.relocate q)) (w.relocate q).2.store
    have hlifted := hl.congr (Warden.bare?_lifted w q.address)
    rcases w.relocate_cases q hcache with ⟨_, m, -, ⟨f, hf⟩, h⟩ | ⟨moved, m, hmove, hok, h⟩
    · simp only [Lineage.after, hf, h]
      exact hlifted.congr (Warden.bare?_restore _ _ _ _)
    · simp only [Lineage.after, hok, h, hmove]
      exact Faithful.resettle (w := { w.lifted q.address with machine := m }) hlifted _ q moved
  | makeExecuteOnly s c =>
    show Faithful (l.after w (.makeExecuteOnly s c)) (w.makeExecuteOnly s c).2.store
    rcases w.makeExecuteOnly_cases s c with
      ⟨⟨f, hf⟩, h, -⟩ | ⟨a, x, m, -, -, -, -, -, -, hok, h⟩
    · simp only [Lineage.after, hf, h]
      exact hl
    · simp only [Lineage.after, hok, h.store]
      exact hl.enroll rfl (Warden.bare?_enroll { w with machine := m } _)
  | releaseExecuteOnly a length =>
    show Faithful l (w.releaseExecuteOnly a length).2.store
    rcases w.releaseExecuteOnly_cases a length with
      ⟨-, h⟩ | ⟨k, r, t, _, _, _, -, -, hremove, -, -, -, -, h, -⟩
    · rw [h.store]
      exact hl
    · rw [h]
      intro k' q hq
      rw [Store.get?_of_remove hremove] at hq
      split at hq
      · cases hq
      · exact hl k' q hq
  | teardown => exact fun k q hq => nomatch hq

/-- Over a run the records stay true to their lineage. -/
theorem Faithful.run (hl : Faithful l w.store) (hcache : w.config.useMappingCache = true)
    (ops : List Operation) : Faithful (l.along w ops) (w.run ops).store := by
  induction ops generalizing l w with
  | nil => exact hl
  | cons op ops ih =>
    refine ih (hl.perform hcache op) ?_
    rw [Warden.config_perform]
    exact hcache

/-- The present protection is part of the history. -/
theorem Faithful.has_current {s : Store} (hl : Faithful l s) (hr : s.get? h = some r) :
    r.granted.has r.current = true := by
  obtain ⟨hgranted, hcurrent⟩ := hl h r hr
  obtain ⟨rest, hrest⟩ := List.head?_eq_some_iff.1 hcurrent
  rw [hgranted, hrest, Rights.unionAll_cons]
  exact Rights.union_has_left _ _

/-! ## What the transition rules decide -/

/-- When a change of protection breaks a rule, by what is known of the
mapping. -/
theorem checkReprotect_error_iff (c : Config) (ρ : Rights) (history : Option History) :
    (∃ d, c.checkReprotect ρ history = .error d) ↔
      (c.disallowRwx = true ∧ ρ.isWriteExec = true) ∨
        ∃ known, history = some known ∧ known.executeOnly = false ∧
          ((c.disallowTransitionToX = true ∧ ρ.has .exec = true ∧
              known.granted.has .write = true) ∨
            (c.disallowTransitionFromX = true ∧ ρ.has .write = true ∧
              known.granted.has .exec = true)) := by
  unfold Config.checkReprotect Config.checkWriteExec
  by_cases hwx : (c.disallowRwx && ρ.isWriteExec) = true
  · simp only [hwx, if_true]
    rw [Bool.and_eq_true] at hwx
    exact iff_of_true ⟨_, rfl⟩ (Or.inl hwx)
  · have hno : ¬ (c.disallowRwx = true ∧ ρ.isWriteExec = true) := by
      rwa [Bool.and_eq_true] at hwx
    simp only [hwx, hno, false_or]
    cases history with
    | none => simp
    | some known =>
      cases hxo : known.executeOnly with
      | true =>
        -- execute-only memory is exempt: the rules do not get to see its history
        have hexempt : (some known).filter (!·.executeOnly) = none := by simp [hxo]
        simp [hexempt, hxo]
      | false =>
        have hbound : (some known).filter (!·.executeOnly) = some known := by simp [hxo]
        simp only [hbound, Option.some.injEq, exists_eq_left', hxo, true_and, Bool.and_eq_true,
          and_assoc]
        by_cases hto : c.disallowTransitionToX = true ∧ ρ.has .exec = true ∧
            known.granted.has .write = true
        · simp [hto]
        · by_cases hfrom : c.disallowTransitionFromX = true ∧ ρ.has .write = true ∧
            known.granted.has .exec = true
          · simp [hto, hfrom]
          · simp [hto, hfrom]

/-- A change of protection is denied when the check says so. -/
theorem reprotect_denied_iff (w : Warden) (a length : Nat) (ρ : Rights) :
    (∃ v fatal, (w.reprotect a length ρ).1 = .error (.policyViolation v fatal)) ↔
      ∃ d, w.config.checkReprotect ρ (((w.found a).bind w.store.get?).map Record.history) =
        .error d := by
  have hcheck : w.config.checkReprotect ρ
      (((if w.config.useMappingCache then w.store.find? a else none).bind w.store.get?).map
        Record.history) =
      w.config.checkReprotect ρ (((w.found a).bind w.store.get?).map Record.history) := rfl
  unfold Warden.reprotect
  simp only [hcheck]
  cases w.config.checkReprotect ρ (((w.found a).bind w.store.get?).map Record.history) with
  | error d => exact iff_of_true ⟨_, _, rfl⟩ ⟨d, rfl⟩
  | ok _ =>
    refine iff_of_false ?_ (by rintro ⟨d, ⟨⟩⟩)
    rintro ⟨v, fatal, hdenied⟩
    simp only at hdenied
    split at hdenied
    · cases hdenied
    · split at hdenied <;> cases hdenied

/-- **The transition rules follow a record's whole lineage.** Over every
run that begins without records, under every fault, each record's history
is the union of its lineage and its protection the latest entry; and a
change of protection is denied exactly when it asks for writing and
executing while that is forbidden, or finds a record that is not
execute-only and whose lineage holds what a rule forbids together with
the protection asked for. -/
theorem transitions_follow_lineage (hempty : w.store = .empty)
    (hcache : w.config.useMappingCache = true) (ops : List Operation) :
    let l := Lineage.along (fun _ => []) w ops
    let v := w.run ops
    (∀ h r, v.store.get? h = some r →
      r.granted = .unionAll (l h) ∧ (l h).head? = some r.current ∧
        r.granted.has r.current = true) ∧
    ∀ a length ρ,
      (∃ rule fatal, (v.reprotect a length ρ).1 = .error (.policyViolation rule fatal)) ↔
      (w.config.disallowRwx = true ∧ ρ.has .write = true ∧ ρ.has .exec = true) ∨
        ∃ h r, v.store.find? a = some h ∧ v.store.get? h = some r ∧ r.executeOnly = none ∧
          ((w.config.disallowTransitionToX = true ∧ ρ.has .exec = true ∧
              ∃ σ ∈ l h, σ.has .write = true) ∨
            (w.config.disallowTransitionFromX = true ∧ ρ.has .write = true ∧
              ∃ σ ∈ l h, σ.has .exec = true)) := by
  intro l v
  have hfaithful : Faithful l v.store := by
    refine Faithful.run ?_ hcache ops
    intro k r hr
    rw [hempty] at hr
    cases hr
  have hconfig : v.config = w.config := Warden.config_run w ops
  refine ⟨fun h r hr => ⟨(hfaithful h r hr).1, (hfaithful h r hr).2, hfaithful.has_current hr⟩,
    fun a length ρ => ?_⟩
  rw [reprotect_denied_iff, checkReprotect_error_iff, hconfig, Rights.isWriteExec_iff]
  refine or_congr Iff.rfl ?_
  have hfound : v.found a = v.store.find? a := by
    unfold Warden.found
    rw [hconfig, if_pos hcache]
  rw [hfound]
  -- the rules ask for one bit of the union, which is that bit in some entry
  have hbits : ∀ h r, v.store.get? h = some r →
      (r.granted.has .write = true ↔ ∃ σ ∈ l h, σ.has .write = true) ∧
        (r.granted.has .exec = true ↔ ∃ σ ∈ l h, σ.has .exec = true) := by
    intro h r hr
    rw [(hfaithful h r hr).1, Rights.write_eq_single, Rights.exec_eq_single]
    exact ⟨Rights.unionAll_has_single (by decide), Rights.unionAll_has_single (by decide)⟩
  constructor
  · rintro ⟨known, hknown, hxo, hrule⟩
    obtain ⟨r, hr, rfl⟩ := Option.map_eq_some_iff.1 hknown
    obtain ⟨h, hh, hr⟩ := Option.bind_eq_some_iff.1 hr
    obtain ⟨hwrite, hexec⟩ := hbits h r hr
    refine ⟨h, r, hh, hr, Option.isSome_eq_false_iff.1 hxo |> Option.isNone_iff_eq_none.1, ?_⟩
    rw [← hwrite, ← hexec]
    exact hrule
  · rintro ⟨h, r, hh, hr, hxo, hrule⟩
    obtain ⟨hwrite, hexec⟩ := hbits h r hr
    rw [← hwrite, ← hexec] at hrule
    refine ⟨r.history, ?_, ?_, hrule⟩
    · rw [hh, Option.bind_some, hr, Option.map_some]
    · show r.executeOnly.isSome = false
      rw [hxo]
      rfl

/-- The upper part of a split mapping, written to once and made read-only
since, is still not made executable. -/
theorem split_part_remembers_writing :
    ∃ rule fatal, (((Warden.start { useMappingCache := true, disallowTransitionToX := true }).run
      [.create ⟨0, 12288, .readWrite, .privateAnonymous, -1, 0⟩, .remove 0x7effffffe000 4096,
        .reprotect 0x7efffffff000 4096 .read]).reprotect 0x7efffffff000 4096 .exec).1 =
          .error (.policyViolation rule fatal) := by
  refine ((transitions_follow_lineage rfl rfl _).2 _ _ _).2 (Or.inr ?_)
  refine ⟨⟨1, 0⟩, ⟨0x7efffffff000, 4096, .readWrite, .read, none, none, none⟩, rfl, rfl, rfl,
    Or.inl ⟨rfl, rfl, .readWrite, ?_, rfl⟩⟩
  show Rights.readWrite ∈ [Rights.read, Rights.readWrite]
  simp

end PageWarden
