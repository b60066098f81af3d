import PageWarden.Proofs.Carve
/-!
# Calls — how an operation uses the machine

Whatever is asked of a warden, its machine changes by calls of the
primitives and by events told between them, and in no other way. What
every call keeps is therefore kept by every run; the first such fact is
that a machine on which nothing is scheduled to fail stays one
(`Calls.faults`).

What follows up a request once the machine has agreed to it is less than
that: guards, keys and events (`Upkeep`). It gives no page any rights
(`Upkeep.rightsAt`).
-/

namespace PageWarden

namespace Machine

/-- `m` comes to `m'` by calls of the primitives and by events. -/
inductive Calls (m : Machine) : Machine → Prop
  | refl : Calls m m
  | tell {m' : Machine} (h : Calls m m') (e : Event) : Calls m (m'.tell e)
  | map {m' : Machine} (h : Calls m m') (q : MapRequest) : Calls m (m'.map q).2
  | unmap {m' : Machine} (h : Calls m m') (address length : Nat) :
      Calls m (m'.unmap address length).2
  | protect {m' : Machine} (h : Calls m m') (address length : Nat) (rights : Rights) :
      Calls m (m'.protect address length rights).2
  | move {m' : Machine} (h : Calls m m') (q : MoveRequest) : Calls m (m'.move q).2
  | fill {m' : Machine} (h : Calls m m') (address length : Nat) (byte : UInt8) :
      Calls m (m'.fill address length byte)
  | copy {m' : Machine} (h : Calls m m') (address : Nat) (bytes : List UInt8) :
      Calls m (m'.copy address bytes)
  | keyAlloc {m' : Machine} (h : Calls m m') (rights : KeyRights) :
      Calls m (m'.keyAlloc rights).2
  | keyProtect {m' : Machine} (h : Calls m m') (address length : Nat) (rights : Rights)
      (key : Nat) : Calls m (m'.keyProtect address length rights key).2
  | keyRights {m' : Machine} (h : Calls m m') (key : Nat) : Calls m (m'.keyRights key).2
  | keyFree {m' : Machine} (h : Calls m m') (key : Nat) : Calls m (m'.keyFree key)

/-- One stretch of calls after another is a stretch of calls. -/
theorem Calls.trans {m₁ m₂ m₃ : Machine} (h : Calls m₁ m₂) (h' : Calls m₂ m₃) : Calls m₁ m₃ := by
  induction h' with
  | refl => exact h
  | tell _ e ih => exact ih.tell e
  | map _ q ih => exact ih.map q
  | unmap _ a l ih => exact ih.unmap a l
  | protect _ a l ρ ih => exact ih.protect a l ρ
  | move _ q ih => exact ih.move q
  | fill _ a l b ih => exact ih.fill a l b
  | copy _ a b ih => exact ih.copy a b
  | keyAlloc _ ρ ih => exact ih.keyAlloc ρ
  | keyProtect _ a l ρ k ih => exact ih.keyProtect a l ρ k
  | keyRights _ k ih => exact ih.keyRights k
  | keyFree _ k ih => exact ih.keyFree k

/-- A mapping is a stretch of calls, whatever comes of it. -/
theorem calls_of_map {m m' : Machine} {q : MapRequest} {o : Except Errno Nat}
    (h : m.map q = (o, m')) : m.Calls m' := by
  have hcalls := Calls.refl.map (m := m) q
  rw [h] at hcalls
  exact hcalls

/-- So is an unmapping. -/
theorem calls_of_unmap {m m' : Machine} {address length : Nat} {o : Except Errno Unit}
    (h : m.unmap address length = (o, m')) : m.Calls m' := by
  have hcalls := Calls.refl.unmap (m := m) address length
  rw [h] at hcalls
  exact hcalls

/-- So is a move. -/
theorem calls_of_move {m m' : Machine} {q : MoveRequest} {o : Except Errno Nat}
    (h : m.move q = (o, m')) : m.Calls m' := by
  have hcalls := Calls.refl.move (m := m) q
  rw [h] at hcalls
  exact hcalls

/-- A call schedules nothing for a primitive that nothing is scheduled for. -/
theorem unscheduled_perform {α : Type} {m : Machine} {p : Primitive} (hm : m.faults p = [])
    (p' : Primitive) (act : Space → Except Errno α × Space) (entry : Except Errno α → Call) :
    (m.perform p' act entry).2.faults p = [] := by
  by_cases hp : p = p'
  · subst hp
    simp only [perform, Faults.next, hm]
  · rw [faults_perform m act entry hp, hm]

/-- **Where nothing is scheduled for a primitive, calls schedule nothing**
for it, whatever may be scheduled for others. -/
theorem Calls.unscheduled {m m' : Machine} {p : Primitive} (h : Calls m m')
    (hm : m.faults p = []) : m'.faults p = [] := by
  induction h with
  | refl => exact hm
  | tell _ _ ih => exact ih
  | map _ _ ih => exact unscheduled_perform ih _ _ _
  | unmap _ _ _ ih => exact unscheduled_perform ih _ _ _
  | protect _ _ _ _ ih => exact unscheduled_perform ih _ _ _
  | move _ _ ih => exact unscheduled_perform ih _ _ _
  | fill _ _ _ _ ih => exact ih
  | copy _ _ _ ih => exact ih
  | keyAlloc _ _ ih =>
    unfold Machine.keyAlloc
    split
    · exact unscheduled_perform ih _ _ _
    · exact ih
  | keyProtect _ _ _ _ _ ih =>
    unfold Machine.keyProtect
    split
    · exact unscheduled_perform ih _ _ _
    · exact ih
  | keyRights _ _ ih =>
    unfold Machine.keyRights
    split <;> exact ih
  | keyFree _ _ ih =>
    unfold Machine.keyFree
    split <;> exact ih

/-- **Where nothing is scheduled to fail, calls schedule nothing.** -/
theorem Calls.faults {m m' : Machine} (h : Calls m m') (hm : m.faults = .never) :
    m'.faults = .never :=
  funext fun p => h.unscheduled (congrFun hm p)

/-- The platform stays what it is. -/
theorem Calls.platform {m m' : Machine} (h : Calls m m') : m'.platform = m.platform := by
  induction h with
  | refl => rfl
  | tell _ _ ih | map _ _ ih | unmap _ _ _ ih | protect _ _ _ _ ih | move _ _ ih
  | fill _ _ _ _ ih | copy _ _ _ ih => exact ih
  | keyAlloc _ _ ih =>
    unfold Machine.keyAlloc
    split <;> exact ih
  | keyProtect _ _ _ _ _ ih =>
    unfold Machine.keyProtect
    split <;> exact ih
  | keyRights _ _ ih =>
    unfold Machine.keyRights
    split <;> exact ih
  | keyFree _ _ ih =>
    unfold Machine.keyFree
    split <;> exact ih

end Machine

namespace Guard

open Machine

/-- Placing a guard is a stretch of calls. -/
theorem calls_place (m : Machine) (address : Nat) : Calls m (place m address).2 := by
  unfold place
  split <;> rename_i hmap
  · split
    · exact (calls_of_map hmap).tell _
    · exact ((calls_of_map hmap).unmap _ _).tell _
  · exact (calls_of_map hmap).tell _

/-- So is lifting one. -/
theorem calls_lift (m : Machine) (address : Nat) : Calls m (lift m address) := by
  unfold lift
  split <;> rename_i hunmap <;> exact (calls_of_unmap hunmap).tell _

end Guard

/-! ## Upkeep -/

namespace Machine

/-- `m` comes to `m'` by guards that are placed and lifted, keys that are
given back, and events: by all that follows up a request. -/
inductive Upkeep (m : Machine) : Machine → Prop
  | refl : Upkeep m m
  | tell {m' : Machine} (h : Upkeep m m') (e : Event) : Upkeep m (m'.tell e)
  | place {m' : Machine} (h : Upkeep m m') (address : Nat) : Upkeep m (Guard.place m' address).2
  | lift {m' : Machine} (h : Upkeep m m') (address : Nat) : Upkeep m (Guard.lift m' address)
  | keyFree {m' : Machine} (h : Upkeep m m') (key : Nat) : Upkeep m (m'.keyFree key)

/-- One upkeep after another is an upkeep. -/
theorem Upkeep.trans {m₁ m₂ m₃ : Machine} (h : Upkeep m₁ m₂) (h' : Upkeep m₂ m₃) :
    Upkeep m₁ m₃ := by
  induction h' with
  | refl => exact h
  | tell _ e ih => exact ih.tell e
  | place _ a ih => exact ih.place a
  | lift _ a ih => exact ih.lift a
  | keyFree _ k ih => exact ih.keyFree k

/-- Upkeep is a stretch of calls. -/
theorem Upkeep.calls {m m' : Machine} (h : Upkeep m m') : Calls m m' := by
  induction h with
  | refl => exact .refl
  | tell _ e ih => exact ih.tell e
  | place _ a ih => exact ih.trans (Guard.calls_place _ a)
  | lift _ a ih => exact ih.trans (Guard.calls_lift _ a)
  | keyFree _ k ih => exact ih.keyFree k

/-- **Upkeep gives no page any rights**: what a page allows afterwards it
allowed before, or it is nothing. -/
theorem Upkeep.rightsAt {m m' : Machine} (h : Upkeep m m') {n : Nat} {ρ : Rights}
    (hρ : m'.rightsAt n = some ρ) : m.rightsAt n = some ρ ∨ ρ = .noAccess := by
  induction h with
  | refl => exact Or.inl hρ
  | tell _ _ ih => exact ih hρ
  | place _ a ih =>
    rcases Guard.rightsAt_of_place hρ with hold | hnone
    · exact ih hold
    · exact Or.inr hnone
  | lift _ a ih => exact ih (Guard.rightsAt_of_lift hρ)
  | keyFree _ k ih =>
    rw [rightsAt_keyFree] at hρ
    exact ih hρ

end Machine

namespace Guard

open Machine

theorem upkeep_placeBelow (m : Machine) (r : Record) : Upkeep m (placeBelow m r).2 := by
  unfold placeBelow
  split
  · exact Upkeep.refl
  · exact Upkeep.refl.place _

theorem upkeep_placeAbove (m : Machine) (r : Record) : Upkeep m (placeAbove m r).2 := by
  unfold placeAbove
  split
  · exact Upkeep.refl
  · exact Upkeep.refl.place _

theorem upkeep_placeAll (m : Machine) (r : Record) : Upkeep m (placeAll m r).2 :=
  (upkeep_placeBelow m r).trans (upkeep_placeAbove _ _)

theorem upkeep_removeBelow (m : Machine) (r : Record) : Upkeep m (removeBelow m r).2 := by
  unfold removeBelow
  split
  · exact Upkeep.refl.lift _
  · exact Upkeep.refl

theorem upkeep_removeAbove (m : Machine) (r : Record) : Upkeep m (removeAbove m r).2 := by
  unfold removeAbove
  split
  · exact Upkeep.refl.lift _
  · exact Upkeep.refl

theorem upkeep_removeAll (m : Machine) (r : Record) : Upkeep m (removeAll m r).2 :=
  (upkeep_removeBelow m r).trans (upkeep_removeAbove _ _)

theorem upkeep_rehome (m : Machine) (r : Record) (base length : Nat) (guarded : Bool) :
    Upkeep m (rehome m r base length guarded).2 := by
  have hall := upkeep_removeAll m r
  unfold rehome
  simp only
  split
  · exact hall.trans (upkeep_placeAll _ _)
  · exact hall

end Guard

namespace Warden

open Machine

variable (w : Warden)

/-! ## Carving -/

theorem upkeep_releaseKey (r : Record) : Upkeep w.machine (w.releaseKey r).machine := by
  unfold releaseKey
  split
  · exact Upkeep.refl
  · split
    · exact Upkeep.refl.tell _
    · exact (Upkeep.refl.keyFree _).tell _

theorem upkeep_dropRecord (h : Handle) (r : Record) :
    Upkeep w.machine (w.dropRecord h r).machine := by
  unfold dropRecord
  split
  · exact Upkeep.refl
  · rename_i q store _
    have hkey := upkeep_releaseKey
      { w with store, machine := (Guard.removeAll w.machine r).2 } (Guard.removeAll w.machine r).1
    exact ((Guard.upkeep_removeAll _ r).trans hkey).tell _

theorem upkeep_trimHead (h : Handle) (r : Record) (stop : Nat) (guarded : Bool) :
    Upkeep w.machine (w.trimHead h r stop guarded).machine := by
  have hbelow := Guard.upkeep_removeBelow w.machine r
  refine Upkeep.tell ?_ _
  simp only
  split
  · exact hbelow.trans (Guard.upkeep_placeBelow _ _)
  · exact hbelow

theorem upkeep_trimTail (h : Handle) (r : Record) (start : Nat) (guarded : Bool) :
    Upkeep w.machine (w.trimTail h r start guarded).machine := by
  have habove := Guard.upkeep_removeAbove w.machine r
  refine Upkeep.tell ?_ _
  simp only
  split
  · exact habove.trans (Guard.upkeep_placeAbove _ _)
  · exact habove

theorem upkeep_splitRecord (h : Handle) (r : Record) (start stop : Nat) (guarded : Bool) :
    Upkeep w.machine (w.splitRecord h r start stop guarded).machine := by
  unfold splitRecord
  simp only
  refine Upkeep.tell ?_ _
  simp only
  split
  · exact (Guard.upkeep_placeAbove _ _).trans (Guard.upkeep_placeBelow _ _)
  · exact Upkeep.refl

theorem upkeep_cut (h : Handle) (start stop : Nat) (guarded : Bool) :
    Upkeep w.machine (w.cut h start stop guarded).machine := by
  unfold cut
  split
  · exact Upkeep.refl
  · simp only
    split
    · split
      · exact upkeep_dropRecord _ _ _
      · exact upkeep_trimHead _ _ _ _ _
    · split
      · exact upkeep_trimTail _ _ _ _ _
      · exact upkeep_splitRecord _ _ _ _ _ _

theorem upkeep_carve (start stop : Nat) (keep : Option Handle) :
    Upkeep w.machine (w.carve start stop keep).machine := by
  refine carve_induction (motive := fun _ v => Upkeep w.machine v.machine) Upkeep.refl ?_
  intro v h r _ hv _ _ _
  exact (hv.tell _).trans (upkeep_cut (v.tell _) h start stop false)

end Warden

end PageWarden
