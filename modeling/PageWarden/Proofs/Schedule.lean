import PageWarden.Proofs.ExecuteOnly
/-!
# Schedules — what maps nothing does not read the schedule for mapping

Two runs from one state that differ in what is scheduled for mapping
(`Machine.withMaps`, `Warden.withMaps`) are the same run until something
is mapped. Lifting guards, cutting and carving, sealing and everything
else that maps nothing therefore does the same on either side and leaves
either schedule as it is: it commutes with the change of schedule. A
mapping that is due to pass reads one entry and is the same as well
(`map_withMaps`).

Each attempt to place a guard is told by one event (`Event.attempt?`), so
the journal lists them (`Machine.attempts`). What maps nothing tells of
none.
-/

namespace PageWarden

/-- What an event tells of an attempt to place a guard: the address, and
whether the guard was placed. -/
def Event.attempt? : Event → Option (Nat × Bool)
  | .guardMapped address => some (address, true)
  | .guardElsewhere address _ => some (address, false)
  | .guardRefused address _ => some (address, false)
  | _ => none

namespace Machine

variable {m : Machine} {l : List (Option Errno)}

/-- The machine with another schedule for mapping. -/
def withMaps (m : Machine) (l : List (Option Errno)) : Machine :=
  { m with faults := m.faults.set .map l }

/-- The attempts to place a guard, in order. -/
def attempts (m : Machine) : List (Nat × Bool) := m.events.filterMap Event.attempt?

/-! ## The schedule -/

/-- What is due for another primitive is due on either side. -/
theorem next_set (f : Faults) (l : List (Option Errno)) {p : Primitive} (hp : p ≠ .map) :
    (f.set .map l).next p = ((f.next p).1, (f.next p).2.set .map l) := by
  have hsame : (f.set .map l) p = f p := if_neg hp
  unfold Faults.next
  rw [hsame]
  split
  · rfl
  · refine Prod.ext rfl (funext fun p' => ?_)
    show (if p' = p then _ else if p' = .map then l else f p') =
      if p' = .map then l else if p' = p then _ else f p'
    split
    · rename_i hp'
      rw [if_neg (hp' ▸ hp)]
    · rfl

/-- **A call of another primitive** does the same on either side. -/
theorem perform_withMaps {α : Type} (m : Machine) (l : List (Option Errno)) {p : Primitive}
    (hp : p ≠ .map) (act : Space → Except Errno α × Space) (entry : Except Errno α → Call) :
    (m.withMaps l).perform p act entry =
      ((m.perform p act entry).1, (m.perform p act entry).2.withMaps l) := by
  simp only [perform, withMaps, next_set m.faults l hp]

/-- **A mapping that is due to pass** does the same on either side, and reads
one entry of the schedule. -/
theorem map_withMaps (hm : m.faults .map = []) (q : MapRequest) (l : List (Option Errno)) :
    (m.withMaps (none :: l)).map q = ((m.map q).1, (m.map q).2.withMaps l) := by
  have hnone : m.faults.next .map = (none, m.faults) := by
    unfold Faults.next
    rw [hm]
  have hnext : (m.faults.set .map (none :: l)).next .map = (none, m.faults.set .map l) := by
    have hself : (m.faults.set .map (none :: l)) .map = none :: l := if_pos rfl
    unfold Faults.next
    rw [hself]
    refine Prod.ext rfl (funext fun p => ?_)
    show (if p = .map then l else if p = .map then none :: l else m.faults p) =
      if p = .map then l else m.faults p
    split <;> rfl
  simp only [map, perform, withMaps, hnone, hnext]
  rfl

@[simp] theorem unmap_withMaps (m : Machine) (l : List (Option Errno)) (address length : Nat) :
    (m.withMaps l).unmap address length =
      ((m.unmap address length).1, (m.unmap address length).2.withMaps l) :=
  perform_withMaps m l (by decide) _ _

@[simp] theorem protect_withMaps (m : Machine) (l : List (Option Errno)) (address length : Nat)
    (rights : Rights) :
    (m.withMaps l).protect address length rights =
      ((m.protect address length rights).1, (m.protect address length rights).2.withMaps l) :=
  perform_withMaps m l (by decide) _ _

@[simp] theorem move_withMaps (m : Machine) (l : List (Option Errno)) (q : MoveRequest) :
    (m.withMaps l).move q = ((m.move q).1, (m.move q).2.withMaps l) :=
  perform_withMaps m l (by decide) _ _

@[simp] theorem copy_withMaps (m : Machine) (l : List (Option Errno)) (address : Nat)
    (bytes : List UInt8) :
    (m.withMaps l).copy address bytes = (m.copy address bytes).withMaps l := rfl

@[simp] theorem keyAlloc_withMaps (m : Machine) (l : List (Option Errno)) (rights : KeyRights) :
    (m.withMaps l).keyAlloc rights =
      ((m.keyAlloc rights).1, (m.keyAlloc rights).2.withMaps l) := by
  unfold keyAlloc
  rw [perform_withMaps m l (by decide)]
  show (if m.platform.hasKeyCalls then _ else _) = _
  split <;> rfl

@[simp] theorem keyProtect_withMaps (m : Machine) (l : List (Option Errno)) (address length : Nat)
    (rights : Rights) (key : Nat) :
    (m.withMaps l).keyProtect address length rights key =
      ((m.keyProtect address length rights key).1,
        (m.keyProtect address length rights key).2.withMaps l) := by
  unfold keyProtect
  rw [perform_withMaps m l (by decide)]
  show (if m.platform.hasKeyCalls then _ else _) = _
  split <;> rfl

@[simp] theorem keyRights_withMaps (m : Machine) (l : List (Option Errno)) (key : Nat) :
    (m.withMaps l).keyRights key = ((m.keyRights key).1, (m.keyRights key).2.withMaps l) := by
  unfold keyRights
  show (if m.platform.hasKeyCalls then _ else _) = _
  split <;> rfl

@[simp] theorem keyFree_withMaps (m : Machine) (l : List (Option Errno)) (key : Nat) :
    (m.withMaps l).keyFree key = (m.keyFree key).withMaps l := by
  unfold keyFree
  show (if m.platform.hasKeyCalls then _ else _) = _
  split <;> rfl

/-! ## The attempts -/

/-- An event tells of one attempt or of none. -/
theorem attempts_tell (m : Machine) (e : Event) :
    (m.tell e).attempts = m.attempts ++ e.attempt?.toList := by
  simp only [attempts, events, tell, List.filterMap_append]
  cases h : e.attempt? <;> simp [h]

/-- A call tells of nothing. -/
theorem attempts_of_call {m' : Machine} {c : Call} (h : m'.journal = m.journal ++ [.call c]) :
    m'.attempts = m.attempts := by
  simp [attempts, events, h, List.filterMap_append]

@[simp] theorem attempts_map (m : Machine) (q : MapRequest) :
    (m.map q).2.attempts = m.attempts :=
  attempts_of_call (c := .map q (m.map q).1) rfl

@[simp] theorem attempts_unmap (m : Machine) (address length : Nat) :
    (m.unmap address length).2.attempts = m.attempts :=
  attempts_of_call (c := .unmap address length (m.unmap address length).1) rfl

@[simp] theorem attempts_protect (m : Machine) (address length : Nat) (rights : Rights) :
    (m.protect address length rights).2.attempts = m.attempts :=
  attempts_of_call (c := .protect address length rights (m.protect address length rights).1) rfl

@[simp] theorem attempts_move (m : Machine) (q : MoveRequest) :
    (m.move q).2.attempts = m.attempts :=
  attempts_of_call (c := .move q (m.move q).1) rfl

@[simp] theorem attempts_fill (m : Machine) (address length : Nat) (byte : UInt8) :
    (m.fill address length byte).attempts = m.attempts :=
  attempts_of_call (c := .fill address length byte) rfl

@[simp] theorem attempts_copy (m : Machine) (address : Nat) (bytes : List UInt8) :
    (m.copy address bytes).attempts = m.attempts :=
  attempts_of_call (c := .copy address bytes) rfl

@[simp] theorem attempts_keyAlloc (m : Machine) (rights : KeyRights) :
    (m.keyAlloc rights).2.attempts = m.attempts := by
  unfold keyAlloc
  split
  · exact attempts_of_call rfl
  · rfl

@[simp] theorem attempts_keyProtect (m : Machine) (address length : Nat) (rights : Rights)
    (key : Nat) : (m.keyProtect address length rights key).2.attempts = m.attempts := by
  unfold keyProtect
  split
  · exact attempts_of_call rfl
  · rfl

@[simp] theorem attempts_keyRights (m : Machine) (key : Nat) :
    (m.keyRights key).2.attempts = m.attempts := by
  unfold keyRights
  split
  · exact attempts_of_call rfl
  · rfl

@[simp] theorem attempts_keyFree (m : Machine) (key : Nat) :
    (m.keyFree key).attempts = m.attempts := by
  unfold keyFree
  split
  · exact attempts_of_call rfl
  · rfl

end Machine

/-! ## Guards -/

namespace Guard

variable (m : Machine) (l : List (Option Errno)) (r : Record)

/-- Lifting a guard maps nothing. -/
@[simp] theorem lift_withMaps (address : Nat) :
    lift (m.withMaps l) address = (lift m address).withMaps l := by
  unfold lift
  rw [Machine.unmap_withMaps]
  rcases m.unmap address pageSize with ⟨errno | ⟨⟩, m'⟩ <;> rfl

@[simp] theorem attempts_lift (address : Nat) : (lift m address).attempts = m.attempts := by
  have hunmap := Machine.attempts_unmap m address pageSize
  unfold lift
  split <;> rename_i h <;> rw [h] at hunmap <;>
    exact (Machine.attempts_tell _ _).trans ((List.append_nil _).trans hunmap)

@[simp] theorem removeBelow_withMaps :
    removeBelow (m.withMaps l) r = ((removeBelow m r).1, (removeBelow m r).2.withMaps l) := by
  unfold removeBelow
  split
  · rw [lift_withMaps]
  · rfl

@[simp] theorem attempts_removeBelow : (removeBelow m r).2.attempts = m.attempts := by
  unfold removeBelow
  split
  · exact attempts_lift m _
  · rfl

@[simp] theorem removeAbove_withMaps :
    removeAbove (m.withMaps l) r = ((removeAbove m r).1, (removeAbove m r).2.withMaps l) := by
  unfold removeAbove
  split
  · rw [lift_withMaps]
  · rfl

@[simp] theorem attempts_removeAbove : (removeAbove m r).2.attempts = m.attempts := by
  unfold removeAbove
  split
  · exact attempts_lift m _
  · rfl

@[simp] theorem removeAll_withMaps :
    removeAll (m.withMaps l) r = ((removeAll m r).1, (removeAll m r).2.withMaps l) := by
  simp only [removeAll, removeBelow_withMaps, removeAbove_withMaps]

@[simp] theorem attempts_removeAll : (removeAll m r).2.attempts = m.attempts := by
  simp only [removeAll, attempts_removeAbove, attempts_removeBelow]

end Guard

/-! ## Records -/

namespace Warden

variable (w : Warden) (l : List (Option Errno)) (h : Handle) (r : Record)

/-- The warden of a machine with another schedule for mapping. -/
def withMaps (w : Warden) (l : List (Option Errno)) : Warden :=
  { w with machine := w.machine.withMaps l }

@[simp] theorem store_withMaps : (w.withMaps l).store = w.store := rfl

@[simp] theorem config_withMaps : (w.withMaps l).config = w.config := rfl

@[simp] theorem machine_withMaps : (w.withMaps l).machine = w.machine.withMaps l := rfl

/-- Giving a key back maps nothing. -/
@[simp] theorem releaseKey_withMaps :
    (w.withMaps l).releaseKey r = (w.releaseKey r).withMaps l := by
  unfold releaseKey
  split
  · rfl
  · simp only [store_withMaps, machine_withMaps, Machine.keyFree_withMaps]
    split <;> rfl

@[simp] theorem attempts_releaseKey : (w.releaseKey r).machine.attempts = w.machine.attempts := by
  unfold releaseKey
  split
  · rfl
  · split
    · exact (Machine.attempts_tell _ _).trans (List.append_nil _)
    · exact (Machine.attempts_tell _ _).trans
        ((List.append_nil _).trans (Machine.attempts_keyFree _ _))

/-- An event that tells of no attempt is told on either side. -/
@[simp] theorem tell_withMaps (e : Event) : (w.withMaps l).tell e = (w.tell e).withMaps l := rfl

theorem attempts_tell_of_none {e : Event} (he : e.attempt? = none) :
    (w.tell e).machine.attempts = w.machine.attempts := by
  refine (Machine.attempts_tell _ _).trans ?_
  rw [he]
  exact List.append_nil _

/-- Nor does dropping a record. -/
@[simp] theorem dropRecord_withMaps :
    (w.withMaps l).dropRecord h r = (w.dropRecord h r).withMaps l := by
  unfold dropRecord
  rw [store_withMaps]
  split
  · rfl
  · rename_i q t _
    rw [machine_withMaps, Guard.removeAll_withMaps]
    exact congrArg (tell · (.untracked r.base))
      (releaseKey_withMaps { w with store := t, machine := (Guard.removeAll w.machine r).2 } l _)

@[simp] theorem attempts_dropRecord :
    (w.dropRecord h r).machine.attempts = w.machine.attempts := by
  unfold dropRecord
  split
  · rfl
  · rw [attempts_tell_of_none _ rfl, attempts_releaseKey]
    exact Guard.attempts_removeAll _ _

/-- Nor does a cut after which nothing is guarded. -/
@[simp] theorem cut_withMaps (start stop : Nat) :
    (w.withMaps l).cut h start stop false = (w.cut h start stop false).withMaps l := by
  unfold cut
  rw [store_withMaps]
  split
  · rfl
  · simp only
    split
    · split
      · exact dropRecord_withMaps _ _ _ _
      · simp only [trimHead, machine_withMaps, Guard.removeBelow_withMaps]
        rfl
    · split
      · simp only [trimTail, machine_withMaps, Guard.removeAbove_withMaps]
        rfl
      · rfl

@[simp] theorem attempts_cut (start stop : Nat) :
    (w.cut h start stop false).machine.attempts = w.machine.attempts := by
  unfold cut
  split
  · rfl
  · simp only
    split
    · split
      · exact attempts_dropRecord _ _ _
      · exact (attempts_tell_of_none _ rfl).trans (Guard.attempts_removeBelow _ _)
    · split
      · exact (attempts_tell_of_none _ rfl).trans (Guard.attempts_removeAbove _ _)
      · exact attempts_tell_of_none _ rfl

@[simp] theorem cutForeign_withMaps (start stop : Nat) :
    (w.withMaps l).cutForeign start stop h = (w.cutForeign start stop h).withMaps l := by
  unfold cutForeign
  rw [store_withMaps]
  split
  · rfl
  · rw [tell_withMaps, cut_withMaps]

/-- **Nor does a carve.** -/
@[simp] theorem carve_withMaps (start stop : Nat) (keep : Option Handle) :
    (w.withMaps l).carve start stop keep = (w.carve start stop keep).withMaps l := by
  unfold carve
  show List.foldl (fun w h => cutForeign w start stop h) ((w.forgetGuards start stop).withMaps l)
    _ = _
  exact List.foldl_hom (fun w : Warden => w.withMaps l)
    fun v k => cutForeign_withMaps v l k start stop

@[simp] theorem attempts_carve (start stop : Nat) (keep : Option Handle) :
    (w.carve start stop keep).machine.attempts = w.machine.attempts := by
  refine carve_induction (motive := fun _ v => v.machine.attempts = w.machine.attempts) rfl ?_
  intro v k r rest hv _ _ _
  rw [attempts_cut, attempts_tell_of_none _ rfl, hv]

/-! ## Requests -/

/-- Nor does lifting the guards of a record before a move. -/
@[simp] theorem lifted_withMaps (address : Nat) :
    (w.withMaps l).lifted address = (w.lifted address).withMaps l := by
  unfold lifted
  rw [store_withMaps]
  split
  · rfl
  · unfold liftGuards
    rw [store_withMaps]
    split
    · rfl
    · simp only [machine_withMaps, Guard.removeAll_withMaps]
      rfl

@[simp] theorem attempts_lifted (address : Nat) :
    (w.lifted address).machine.attempts = w.machine.attempts := by
  unfold lifted
  split
  · rfl
  · unfold liftGuards
    split
    · rfl
    · exact Guard.attempts_removeAll _ _

/-- Nor does sealing. -/
@[simp] theorem sealPages_withMaps (m : Machine) (address size : Nat) :
    sealPages (m.withMaps l) address size =
      ((sealPages m address size).1, (sealPages m address size).2.withMaps l) := by
  unfold sealPages
  rw [Machine.keyAlloc_withMaps]
  rcases m.keyAlloc .disableAccess with ⟨errno | key, m₁⟩
  · simp only [Machine.protect_withMaps]
    split
    · rcases m₁.protect address size .exec with ⟨errno' | ⟨⟩, m₂⟩ <;> rfl
    · rfl
  · simp only [Machine.keyProtect_withMaps]
    rcases m₁.keyProtect address size .exec key with ⟨errno' | ⟨⟩, m₂⟩
    · simp only [Machine.keyFree_withMaps]
    · rfl

@[simp] theorem attempts_sealPages (m : Machine) (address size : Nat) :
    (sealPages m address size).2.attempts = m.attempts := by
  have halloc := Machine.attempts_keyAlloc m .disableAccess
  unfold sealPages
  generalize m.keyAlloc .disableAccess = allocated at halloc ⊢
  rcases allocated with ⟨errno | key, m₁⟩
  · have hprotect := Machine.attempts_protect m₁ address size .exec
    simp only
    split
    · split <;> rename_i h <;> rw [h] at hprotect <;> exact hprotect.trans halloc
    · exact halloc
  · have htag := Machine.attempts_keyProtect m₁ address size .exec key
    simp only
    split <;> rename_i h <;> rw [h] at htag
    · exact htag.trans halloc
    · exact (Machine.attempts_keyFree _ _).trans (htag.trans halloc)

/-- Nor does asking what a key isolates with. -/
@[simp] theorem isolation_withMaps (m : Machine) (key : Option Nat) :
    isolation (m.withMaps l) key = ((isolation m key).1, (isolation m key).2.withMaps l) := by
  unfold isolation
  split
  · rfl
  · rw [Machine.keyRights_withMaps]

@[simp] theorem attempts_isolation (m : Machine) (key : Option Nat) :
    (isolation m key).2.attempts = m.attempts := by
  unfold isolation
  split
  · rfl
  · exact Machine.attempts_keyRights _ _

end Warden

end PageWarden
