import PageWarden.Proofs.Path.Operation
import PageWarden.Proofs.Unguarded
/-!
# Tracking alone — it cannot be noticed

Without guards and transition rules records are kept for nobody: no
request is decided by them, and what is done to them calls the machine
for guards and keys only, of which there are none (`Silent`). So tracking
can be erased. `Warden.erase` forgets the records, the switch that keeps
them and the events that were told; whatever is asked of a warden that
tracks in vain (`Vain`), it answers and calls what its erasure does
(`erases_perform`), and over a run two wardens that differ in nothing but
tracking stay in lockstep.
-/

namespace PageWarden

variable {start stop : Nat} {keep : Option Handle} {V V' : View} {m m' : Machine}

namespace Machine

/-- The machine with no events in its journal. -/
def hush (m : Machine) : Machine := { m with journal := m.calls.map .call }

@[simp] theorem calls_hush (m : Machine) : m.hush.calls = m.calls := by
  show (m.calls.map Entry.call).filterMap _ = m.calls
  rw [List.filterMap_map]
  exact List.filterMap_some

@[simp] theorem hush_hush (m : Machine) : m.hush.hush = m.hush := by
  show { m.hush with journal := m.hush.calls.map .call } = m.hush
  rw [calls_hush]
  rfl

@[simp] theorem hush_tell (m : Machine) (e : Event) : (m.tell e).hush = m.hush := by
  simp [hush, tell, calls, List.filterMap_append]

/-- What events alone lead to is the same without them. -/
theorem Silent.hush (h : m.Silent m') : m'.hush = m.hush := h.keeps hush_tell

/-- **Events make no difference to a call.** -/
theorem perform_hush {α : Type} (m : Machine) (p : Primitive)
    (act : Space → Except Errno α × Space) (entry : Except Errno α → Call) :
    m.hush.perform p act entry = ((m.perform p act entry).1, (m.perform p act entry).2.hush) := by
  unfold perform hush
  simp [calls, List.filterMap_append]

theorem map_hush (m : Machine) (q : MapRequest) :
    m.hush.map q = ((m.map q).1, (m.map q).2.hush) :=
  perform_hush m _ _ _

theorem unmap_hush (m : Machine) (address length : Nat) :
    m.hush.unmap address length =
      ((m.unmap address length).1, (m.unmap address length).2.hush) :=
  perform_hush m _ _ _

theorem protect_hush (m : Machine) (address length : Nat) (rights : Rights) :
    m.hush.protect address length rights =
      ((m.protect address length rights).1, (m.protect address length rights).2.hush) :=
  perform_hush m _ _ _

theorem move_hush (m : Machine) (q : MoveRequest) :
    m.hush.move q = ((m.move q).1, (m.move q).2.hush) :=
  perform_hush m _ _ _

theorem fill_hush (m : Machine) (address length : Nat) (byte : UInt8) :
    m.hush.fill address length byte = (m.fill address length byte).hush := by
  simp [fill, hush, calls, List.filterMap_append]

end Machine

/-! ## Records that are kept for nobody -/

/-- No record has a guard or a key. -/
structure View.Plain (V : View) : Prop where
  unguarded : V.Unguarded
  keyless : ∀ κ, ¬ V.Keys κ

namespace View

/-- Clearing leaves such records. -/
theorem Plain.clearing (hV : V.Plain) (hc : Clearing start stop keep V m V' m') : V'.Plain :=
  ⟨hV.unguarded.clearing hc, fun κ hκ => hV.keyless κ (hc.keys hκ)⟩

/-- A record without guards and key may be put in. -/
theorem Plain.put {r : Record} (hV : V.Plain) (h : Handle) (hbare : r.bare = r)
    (hkey : r.key = none) : View.Plain (Function.update V h (some r)) := by
  refine ⟨hV.unguarded.update fun s hs => Option.some.inj hs ▸ hbare, fun κ hκ => ?_⟩
  rcases keys_of_update hκ with ⟨s, ⟨⟩, hs⟩ | hold
  · rw [hkey] at hs
    cases hs
  · exact hV.keyless κ hold

/-- A record that is there has no key. -/
theorem Plain.key_eq_none {h : Handle} {r : Record} (hV : V.Plain) (hr : V h = some r) :
    r.key = none := by
  rw [Option.eq_none_iff_forall_ne_some]
  exact fun κ hκ => hV.keyless κ ⟨h, r, hr, hκ⟩

end View

/-- **Clearing such records is telling**: there is no guard to lift and no
key to give back. -/
theorem Clearing.silent (hc : Clearing start stop keep V m V' m') (hV : V.Plain) :
    m.Silent m' := by
  refine hc.path (fun {U v k r g} hc' hr hg => ?_) fun _ hheld _ => hV.keyless _ hheld
  have hbare : r.bare = r := hV.unguarded.clearing hc' k r hr
  rw [← hbare] at hg
  rcases hg with hg | hg <;> cases hg

/-- Without transition rules no history counts. -/
theorem Config.checkReprotect_of_no_rules {c : Config} (hto : c.disallowTransitionToX = false)
    (hfrom : c.disallowTransitionFromX = false) (ρ : Rights) (history : Option History) :
    c.checkReprotect ρ history = c.checkWriteExec ρ := by
  unfold checkReprotect
  cases c.checkWriteExec ρ with
  | error d => rfl
  | ok =>
    rw [hto, hfrom]
    cases history.filter (!·.executeOnly) <;> rfl

namespace Warden

variable {w v u : Warden}

/-- **The warden tracks in vain**: no guards are asked for, no rule looks at
the history of a mapping, and no record has a guard or a key. -/
structure Vain (w : Warden) : Prop where
  guards : w.config.guardPagesActive = false
  toExec : w.config.disallowTransitionToX = false
  fromExec : w.config.disallowTransitionFromX = false
  shaped : w.store.Shaped
  plain : View.Plain w.store.get?

/-- The machine has no part in it. -/
theorem Vain.withMachine (hw : w.Vain) (m : Machine) : Vain { w with machine := m } :=
  ⟨hw.guards, hw.toExec, hw.fromExec, hw.shaped, hw.plain⟩

/-! ## Follow-ups -/

/-- What no guards are asked for does not guard. -/
theorem Vain.guarding (hw : w.Vain) (hg : Guarding w.config.guardPagesActive V m V' m') :
    V' = V ∧ m.Silent m' := by
  rw [hw.guards] at hg
  exact hg.of_not_asked

/-- Following up a mapping is telling. -/
theorem Vain.settle (hw : w.Vain) (q : MapRequest) {a : Nat} (ha : Aligned a) :
    w.machine.Silent (w.settle q a).machine ∧ View.Plain (w.settle q a).store.get? := by
  have hcarve : Clearing a (a + roundUp q.length pageSize) none w.store.get? w.machine _ _ :=
    clearing_carve hw.shaped (ha.add_roundUp q.length) w.live_none
  have hcarved := hw.plain.clearing hcarve
  by_cases hcache : w.config.useMappingCache = true
  · by_cases hanon : q.isAnonymous = true
    · obtain ⟨hview, hguard⟩ := hw.guarding (guarding_settle hcache hanon a)
      rw [hview]
      exact ⟨(hcarve.silent hw.plain).trans hguard, hcarved.put _ rfl rfl⟩
    · rw [settle_of_file hcache hanon]
      exact ⟨hcarve.silent hw.plain, hcarved⟩
  · unfold Warden.settle
    rw [if_neg hcache]
    exact ⟨.refl, hw.plain⟩

/-- Following up a release is telling. -/
theorem Vain.vacate (hw : w.Vain) {a l : Nat} (ha : Aligned a) (hlen : 0 < l) :
    w.machine.Silent (w.vacate a l).machine ∧ View.Plain (w.vacate a l).store.get? := by
  obtain ⟨V, m, hclear, -, hguard⟩ := vacate_steps hw.shaped ha hlen
  obtain ⟨hview, hsilent⟩ := hw.guarding hguard
  rw [hview]
  exact ⟨(hclear.silent hw.plain).trans hsilent, hw.plain.clearing hclear⟩

/-- Noting a protection is telling. -/
theorem Vain.note (hw : w.Vain) (a l : Nat) (ρ : Rights) :
    w.machine.Silent (w.note a l ρ).machine ∧ View.Plain (w.note a l ρ).store.get? := by
  refine ⟨path_note w a l ρ, ?_⟩
  cases hfound : w.found a with
  | none =>
    rw [note_of_not_found hfound]
    exact hw.plain
  | some h =>
    obtain ⟨r, hr⟩ := exists_of_found hfound
    have hbare : (r.protect ρ).bare = r.protect ρ := by
      rw [← hw.plain.unguarded h r hr]
      rfl
    unfold Warden.note
    simp only [hfound]
    rw [(w.noteProtection_of_get? hr a l ρ).1]
    exact hw.plain.put h hbare (hw.plain.key_eq_none (r := r) hr)

/-- Lifting the guards of a record is telling. -/
theorem Vain.lifted (hw : w.Vain) (address : Nat) :
    w.machine.Silent (w.lifted address).machine ∧ View.Plain (w.lifted address).store.get? := by
  have hclear := clearing_lifted w address 0 0 none
  exact ⟨hclear.silent hw.plain, hw.plain.clearing hclear⟩

/-- So is all that follows up a move. -/
theorem Vain.relocate (hw : w.Vain) (hcache : w.config.useMappingCache = true) {q : MoveRequest}
    {o : Except Errno Nat} {m : Machine} (hmove : (w.lifted q.address).machine.move q = (o, m)) :
    m.Silent (w.relocate q).2.machine ∧ View.Plain (w.relocate q).2.store.get? := by
  have hlifted := (hw.lifted q.address).2
  cases o with
  | error errno =>
    have hguard := guarding_restore { w.lifted q.address with machine := m }
      (w.store.find? q.address) (w.hasBelow q.address) (w.hasAbove q.address)
    rw [hasGuards_of_unguarded hw.plain.unguarded] at hguard
    obtain ⟨hview, hsilent⟩ := hguard.of_not_asked
    rw [relocate_of_move_error hcache hmove, hview]
    exact ⟨hsilent, hlifted⟩
  | ok moved =>
    obtain ⟨V, m', hclear, -, hstage⟩ := relocate_steps hw.shaped hcache hmove
    have hcleared := hlifted.clearing hclear
    rcases hstage with ⟨-, hV, hm⟩ | ⟨h, f, -, hf, -, hguard⟩
    · rw [hV, hm]
      exact ⟨hclear.silent hlifted, hcleared⟩
    · obtain ⟨hview, hsilent⟩ := hw.guarding hguard
      rw [hview]
      exact ⟨(hclear.silent hlifted).trans hsilent,
        hcleared.put h rfl (hw.plain.key_eq_none (r := f) hf)⟩

/-! ## Erasing the records -/

/-- The warden without tracking, and without the events that were told. -/
def erase (w : Warden) : Warden :=
  { config := { w.config with useMappingCache := false }, machine := w.machine.hush }

@[simp] theorem erase_erase (w : Warden) : w.erase.erase = w.erase := by
  simp [erase]

@[simp] theorem erase_tell (w : Warden) (e : Event) : (w.tell e).erase = w.erase := by
  simp [erase, tell]

/-- A call may be made before the records are erased, or after. -/
theorem erase_withMachine (w : Warden) (m : Machine) :
    erase { w.erase with machine := m.hush } = erase { w with machine := m } := by
  simp [erase]

/-- What is done to records by events alone does not show. -/
theorem erase_of_silent (hconfig : v.config = w.config) (h : w.machine.Silent v.machine) :
    v.erase = w.erase := by
  unfold erase
  rw [hconfig, h.hush]

/-- Overwriting fresh memory has nothing to do with records. -/
theorem erase_poison (w : Warden) (q : MapRequest) (a : Nat) :
    (w.poison q a).erase = w.erase.poison q a := by
  have hpoisons : w.erase.config.poisons q.rights = w.config.poisons q.rights := rfl
  unfold poison
  rw [hpoisons]
  split
  · simp [erase, Machine.fill_hush]
  · rfl

/-- The answers are the same, and so are the wardens but for records, of
which the first has none with a guard or a key. -/
structure Erases {α : Type} (a b : α × Warden) : Prop where
  reply : b.1 = a.1
  rest : b.2.erase = a.2.erase
  plain : View.Plain a.2.store.get?

/-- A refusal makes no call. -/
theorem erases_refuse {α : Type} (hw : w.Vain) (operation : String) (address length : Nat)
    (rights : Rights) (d : Denial) :
    Erases (α := Except Failure α) (w.refuse operation address length rights d)
      (w.erase.refuse operation address length rights d) :=
  ⟨rfl, by simp [refuse], hw.plain⟩

/-- A mapping that is followed up in vain. -/
theorem erases_create (hw : w.Vain) (q : MapRequest) :
    Erases (w.create q) (w.erase.create q) := by
  have hvet : w.erase.vet q = w.vet q := rfl
  have hcall : w.erase.machine.map q = _ := w.machine.map_hush q
  rw [create_eq, create_eq, hvet, hcall]
  cases w.vet q with
  | error d => exact erases_refuse hw _ _ _ _ d
  | ok =>
    rcases hmap : w.machine.map q with ⟨errno | a, m⟩
    · exact ⟨rfl, erase_withMachine w m, hw.plain⟩
    · obtain ⟨hsilent, hplain⟩ :=
        (hw.withMachine m).settle q (Machine.aligned_of_map hmap).1
      refine ⟨rfl, ?_, ?_⟩
      · simp only [erase_poison]
        rw [erase_of_silent (config_settle { w with machine := m } q a) hsilent]
        exact congrArg (poison · q a) (erase_withMachine w m)
      · rw [(alike_poison _ q a).store]
        exact hplain

/-- A release that is followed up in vain. -/
theorem erases_remove (hw : w.Vain) (a l : Nat) : Erases (w.remove a l) (w.erase.remove a l) := by
  have hcall : w.erase.machine.unmap a l = _ := w.machine.unmap_hush a l
  rw [remove_eq, remove_eq, hcall]
  rcases hunmap : w.machine.unmap a l with ⟨errno | ⟨⟩, m⟩
  · exact ⟨rfl, erase_withMachine w m, hw.plain⟩
  · obtain ⟨ha, hlen⟩ := Machine.aligned_of_unmap hunmap
    obtain ⟨hsilent, hplain⟩ := (hw.withMachine m).vacate ha hlen
    cases hcache : w.config.useMappingCache with
    | false => exact ⟨rfl, erase_withMachine w m, hw.plain⟩
    | true =>
      refine ⟨rfl, ?_, hplain⟩
      simp only [if_true]
      rw [erase_of_silent (config_vacate { w with machine := m } a l) hsilent]
      exact erase_withMachine w m

/-- A change of protection that is vetted and noted in vain. -/
theorem erases_reprotect (hw : w.Vain) (a l : Nat) (ρ : Rights) :
    Erases (w.reprotect a l ρ) (w.erase.reprotect a l ρ) := by
  have hcheck : w.erase.config.checkReprotect ρ (w.erase.known a) =
      w.config.checkReprotect ρ (w.known a) := by
    rw [Config.checkReprotect_of_no_rules hw.toExec hw.fromExec,
      Config.checkReprotect_of_no_rules (c := w.erase.config) hw.toExec hw.fromExec]
    rfl
  have hcall : w.erase.machine.protect a l ρ = _ := w.machine.protect_hush a l ρ
  rw [reprotect_eq, reprotect_eq, hcheck, hcall]
  cases w.config.checkReprotect ρ (w.known a) with
  | error d => exact erases_refuse hw _ _ _ _ d
  | ok =>
    rcases hprotect : w.machine.protect a l ρ with ⟨errno | ⟨⟩, m⟩
    · exact ⟨rfl, erase_withMachine w m, hw.plain⟩
    · obtain ⟨hsilent, hplain⟩ := (hw.withMachine m).note a l ρ
      refine ⟨rfl, ?_, hplain⟩
      simp only
      rw [erase_of_silent (config_note { w with machine := m } a l ρ) hsilent,
        note_of_not_found rfl]
      exact erase_withMachine w m

/-- A move that records follow in vain. -/
theorem erases_relocate (hw : w.Vain) (q : MoveRequest) :
    Erases (w.relocate q) (w.erase.relocate q) := by
  rw [relocate_eq_of_not_cache w.erase q rfl]
  cases hcache : w.config.useMappingCache with
  | false =>
    have hcall : w.erase.machine.move q = _ := w.machine.move_hush q
    rw [relocate_eq_of_not_cache w q hcache, hcall]
    rcases w.machine.move q with ⟨errno | moved, m⟩ <;> exact ⟨rfl, erase_withMachine w m, hw.plain⟩
  | true =>
    -- there are no guards to lift, so the call finds the machine as it was
    have hcall : w.erase.machine.move q = _ := (w.lifted q.address).machine.move_hush q ▸
      congrArg (Machine.move · q) (hw.lifted q.address).1.hush.symm
    rcases hmove : (w.lifted q.address).machine.move q with ⟨o, m⟩
    obtain ⟨hsilent, hplain⟩ := hw.relocate hcache hmove
    have hrest : erase { w.erase with machine := m.hush } = (w.relocate q).2.erase :=
      (erase_withMachine w m).trans
        (erase_of_silent (w := { w with machine := m }) (config_perform w (.relocate q)) hsilent).symm
    rw [hcall, hmove]
    cases o with
    | error errno => exact ⟨by rw [relocate_eq w q hcache, hmove], hrest, hplain⟩
    | ok moved => exact ⟨by rw [relocate_eq w q hcache, hmove], hrest, hplain⟩

/-! ## Every operation -/

end Warden

/-- The operation is one of the four requests for mappings. -/
def Operation.isMapping : Operation → Bool
  | .create _ => true
  | .remove _ _ => true
  | .reprotect _ _ _ => true
  | .relocate _ => true
  | .makeExecuteOnly _ _ => false
  | .releaseExecuteOnly _ _ => false
  | .teardown => false

namespace Warden

variable {w v u : Warden}

/-- **A warden that tracks in vain answers and calls what its erasure
does**, and goes on tracking in vain. -/
theorem erases_perform (hw : w.Vain) {op : Operation} (hop : op.isMapping = true) :
    Erases (w.perform op) (w.erase.perform op) := by
  have hsame : ∀ {α β : Type} {a b : α × Warden} (f : α → β), Erases a b →
      Erases (f a.1, a.2) (f b.1, b.2) :=
    fun f h => ⟨congrArg f h.reply, h.rest, h.plain⟩
  cases op with
  | create q => exact hsame _ (erases_create hw q)
  | remove a l => exact hsame _ (erases_remove hw a l)
  | reprotect a l ρ => exact hsame _ (erases_reprotect hw a l ρ)
  | relocate q => exact hsame _ (erases_relocate hw q)
  | makeExecuteOnly s c => cases hop
  | releaseExecuteOnly a l => cases hop
  | teardown => cases hop

/-- Tracking stays in vain. -/
theorem vain_perform (hw : w.Vain) {op : Operation} (hop : op.isMapping = true) :
    (w.perform op).2.Vain := by
  refine ⟨?_, ?_, ?_, shaped_perform hw.shaped op, (erases_perform hw hop).plain⟩ <;>
    rw [config_perform]
  · exact hw.guards
  · exact hw.toExec
  · exact hw.fromExec

/-- **Two wardens with the same erasure** that track in vain stay in
lockstep over every run. -/
theorem erase_run {ops : List Operation} (hv : v.Vain) (hu : u.Vain) (hsame : v.erase = u.erase)
    (hops : ∀ op ∈ ops, op.isMapping = true) :
    (v.run ops).Vain ∧ (u.run ops).Vain ∧ (v.run ops).erase = (u.run ops).erase := by
  induction ops generalizing v u with
  | nil => exact ⟨hv, hu, hsame⟩
  | cons op ops ih =>
    have hop := hops op List.mem_cons_self
    refine ih (vain_perform hv hop) (vain_perform hu hop) ?_
      fun o ho => hops o (List.mem_cons_of_mem op ho)
    rw [← (erases_perform hv hop).rest, hsame, (erases_perform hu hop).rest]

/-- **Tracking alone cannot be noticed.** Without guard pages and transition
rules, and whatever else is configured, a warden that tracks and one that
does not, set before equal machines with equal faults, give the same reply
to each of any mapping requests, make the same calls with the same
outcomes, and leave the same space. -/
theorem tracking_unnoticed {c : Config} (hguards : c.enableGuardPages = false)
    (hto : c.disallowTransitionToX = false) (hfrom : c.disallowTransitionFromX = false)
    (m : Machine) {ops : List Operation} (hops : ∀ op ∈ ops, op.isMapping = true)
    {done : List Operation} {op : Operation} (hdone : done ++ [op] <+: ops) :
    let on : Warden := { config := { c with useMappingCache := true }, machine := m }
    let off : Warden := { config := { c with useMappingCache := false }, machine := m }
    ((on.run done).perform op).1 = ((off.run done).perform op).1 ∧
      ((on.run done).perform op).2.machine.calls = ((off.run done).perform op).2.machine.calls ∧
      ((on.run done).perform op).2.machine.space = ((off.run done).perform op).2.machine.space := by
  intro on off
  have hvain : ∀ cache : Bool,
      Vain { config := { c with useMappingCache := cache }, machine := m } := fun cache => by
    refine ⟨?_, hto, hfrom, shaped_of_empty rfl, ?_⟩
    · show (c.enableGuardPages && cache) = false
      rw [hguards, Bool.false_and]
    · exact ⟨fun _ _ hr => (nomatch hr), fun κ ⟨k, r, hr, _⟩ => nomatch hr⟩
  have hmem : ∀ o ∈ done ++ [op], o.isMapping = true := fun o ho => hops o (hdone.subset ho)
  have hop : op.isMapping = true := hmem op (List.mem_append_right done List.mem_cons_self)
  obtain ⟨hon, hoff, hsame⟩ := erase_run (hvain true) (hvain false) rfl
    fun o ho => hmem o (List.mem_append_left [op] ho)
  have hrest : ((on.run done).perform op).2.erase = ((off.run done).perform op).2.erase := by
    rw [← (erases_perform hon hop).rest, hsame, (erases_perform hoff hop).rest]
  refine ⟨?_, ?_, congrArg (fun w => w.machine.space) hrest⟩
  · rw [← (erases_perform hon hop).reply, hsame, (erases_perform hoff hop).reply]
  · have hcalls := congrArg (fun w => w.machine.calls) hrest
    simp only [erase, Machine.calls_hush] at hcalls
    exact hcalls

/-- A mapping is replaced in its middle, after an unmapping there has failed,
and its upper part is moved over its lower one. That takes three records
and eight events, and not one call. -/
theorem tracked_run_unnoticed :
    let c : Config := { disallowRwx := true, poisonOnAllocation := true }
    let m : Machine := { space := .empty, faults := Faults.never.schedule .unmap .inval 0 1 }
    let on : Warden := { config := { c with useMappingCache := true }, machine := m }
    let off : Warden := { config := { c with useMappingCache := false }, machine := m }
    let done : List Operation :=
      [.create ⟨0, 20480, .readWrite, .privateAnonymous, -1, 0⟩,
        .remove 0x7effffffd000 4096,
        .create ⟨0x7effffffd000, 4096, .read, MapFlags.privateAnonymous.union .fixedAddress, -1, 0⟩]
    let op : Operation := .relocate ⟨0x7effffffe000, 4096, 4096, ⟨3⟩, 0x7effffffb000⟩
    (on.run (done ++ [op])).tracked = 3 ∧ (on.run (done ++ [op])).machine.events.length = 8 ∧
      ((on.run done).perform op).1 = ((off.run done).perform op).1 ∧
      ((on.run done).perform op).2.machine.calls = ((off.run done).perform op).2.machine.calls ∧
      ((on.run done).perform op).2.machine.space = ((off.run done).perform op).2.machine.space := by
  refine ⟨rfl, rfl, ?_⟩
  exact tracking_unnoticed rfl rfl rfl _ (by decide) (List.prefix_refl _)

end Warden

end PageWarden
