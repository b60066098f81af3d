import PageWarden.Proofs.Bookkeeping
import PageWarden.Proofs.Run
/-!
# Writing and executing — no page allows both

The check that keeps them apart stands before two requests only, but
rights come to pages in other ways as well: guards are placed, scratch
memory is mapped and sealed, a move takes pages along and grows the
mapping. None of these brings the two together: follow-ups give no rights
(`Upkeep.rightsAt`), a move hands on those of its pages
(`Machine.rightsAt_of_move`), and what is sealed can only be executed. So
where the rule is on, memory that keeps them apart does so after every
operation (`keepsApart_perform`), but for a mapping of a file, which no check
looks at.
-/

namespace PageWarden

/-- No mapped page allows writing and executing at once. -/
def Machine.KeepsApart (m : Machine) : Prop :=
  ∀ n ρ, m.rightsAt n = some ρ → ¬ (ρ.has .write = true ∧ ρ.has .exec = true)

namespace Machine

variable {m m' : Machine}

/-- Where every page allows what some page allowed before, or what keeps
the two apart, nothing is lost. -/
theorem KeepsApart.of_rights (hm : m.KeepsApart)
    (h : ∀ n ρ, m'.rightsAt n = some ρ → (∃ k, m.rightsAt k = some ρ) ∨ ρ.isWriteExec = false) :
    m'.KeepsApart := by
  intro n ρ hρ
  rcases h n ρ hρ with ⟨k, hk⟩ | hapart
  · exact hm k ρ hk
  · rw [← Rights.isWriteExec_iff, hapart]
    exact Bool.false_ne_true

/-- The view of rights is what counts. -/
theorem KeepsApart.congr (hm : m.KeepsApart) (h : m'.rightsAt = m.rightsAt) : m'.KeepsApart := by
  unfold KeepsApart
  rw [h]
  exact hm

/-- Upkeep gives no rights. -/
theorem KeepsApart.upkeep (hm : m.KeepsApart) (h : m.Upkeep m') : m'.KeepsApart := by
  refine hm.of_rights fun n ρ hρ => ?_
  rcases h.rightsAt hρ with hold | rfl
  · exact Or.inl ⟨n, hold⟩
  · exact Or.inr rfl

/-- A mapping brings the rights it was asked for. -/
theorem KeepsApart.map (hm : m.KeepsApart) {q : MapRequest} {a : Nat}
    (h : m.map q = (.ok a, m')) (hq : q.rights.isWriteExec = false) : m'.KeepsApart := by
  refine hm.of_rights fun n ρ hρ => ?_
  rw [rightsAt_map h] at hρ
  split at hρ
  · cases hρ
    exact Or.inr hq
  · exact Or.inl ⟨n, hρ⟩

/-- An unmapping brings none, whatever comes of it. -/
theorem KeepsApart.unmap (hm : m.KeepsApart) {address length : Nat} {o : Except Errno Unit}
    (h : m.unmap address length = (o, m')) : m'.KeepsApart := by
  cases o with
  | error errno => exact hm.congr (funext fun n =>
      rightsAt_congr (congrFun (pageAt_of_space (space_of_unmap_error h)) n))
  | ok =>
    refine hm.of_rights fun n ρ hρ => ?_
    rw [rightsAt_unmap h] at hρ
    split at hρ
    · cases hρ
    · exact Or.inl ⟨n, hρ⟩

/-- A change of protection brings the rights it was asked for. -/
theorem KeepsApart.protect (hm : m.KeepsApart) {address length : Nat} {rights : Rights}
    (h : m.protect address length rights = (.ok (), m')) (hρ : rights.isWriteExec = false) :
    m'.KeepsApart := by
  refine hm.of_rights fun n σ hσ => ?_
  rw [rightsAt_protect h] at hσ
  split at hσ
  · cases hσ
    exact Or.inr hρ
  · exact Or.inl ⟨n, hσ⟩

/-- **A move hands on the rights of its pages**, whatever comes of it. -/
theorem KeepsApart.move (hm : m.KeepsApart) {q : MoveRequest} {o : Except Errno Nat}
    (h : m.move q = (o, m')) : m'.KeepsApart := by
  refine hm.of_rights fun n ρ hρ => ?_
  cases o with
  | error errno => exact Or.inl ⟨n, rightsAt_of_move_error h hρ⟩
  | ok moved =>
    rcases rightsAt_of_move h hρ with hold | rfl
    · exact Or.inl hold
    · exact Or.inr rfl

end Machine

namespace Config

variable {c : Config} {ρ : Rights}

/-- What passes the check does not ask for both. -/
theorem isWriteExec_of_checkWriteExec (hrule : c.disallowRwx = true)
    (h : c.checkWriteExec ρ = .ok ()) : ρ.isWriteExec = false := by
  unfold checkWriteExec at h
  rw [hrule, Bool.true_and] at h
  split at h
  · cases h
  · rename_i hno
    exact Bool.eq_false_iff.2 hno

/-- Nor does what passes as a new mapping. -/
theorem isWriteExec_of_checkCreate (hrule : c.disallowRwx = true) {address : Nat}
    (h : c.checkCreate address ρ = .ok ()) : ρ.isWriteExec = false := by
  unfold checkCreate at h
  split at h
  · cases h
  · rename_i hpass
    exact isWriteExec_of_checkWriteExec hrule hpass

/-- Nor does what passes as a change of protection, with any history. -/
theorem isWriteExec_of_checkReprotect (hrule : c.disallowRwx = true) {history : Option History}
    (h : c.checkReprotect ρ history = .ok ()) : ρ.isWriteExec = false := by
  unfold checkReprotect at h
  split at h
  · cases h
  · rename_i hpass
    exact isWriteExec_of_checkWriteExec hrule hpass

end Config

namespace Warden

variable {w : Warden}

/-! ## The requests that are checked -/

/-- A mapping without a file that is made has passed the check. -/
theorem checkCreate_of_create {q : MapRequest} {a : Nat} (hanon : q.isAnonymous = true)
    (h : (w.create q).1 = .ok a) : w.config.checkCreate q.address q.rights = .ok () := by
  unfold create at h
  rw [if_pos hanon] at h
  split at h
  · cases h
  · assumption

/-- So has a change of protection that is made. -/
theorem checkReprotect_of_reprotect {a l : Nat} {ρ : Rights} (h : (w.reprotect a l ρ).1 = .ok ()) :
    ∃ history, w.config.checkReprotect ρ history = .ok () := by
  unfold reprotect at h
  simp only at h
  split at h
  · cases h
  · rename_i hpass
    exact ⟨_, hpass⟩

/-! ## Execute-only memory -/

/-- Sealing grants the right to execute and no other, whatever comes of it. -/
theorem keepsApart_sealPages {m m' : Machine} {a size : Nat} {o : Except Failure (Option Nat)}
    (hm : m.KeepsApart) (h : sealPages m a size = (o, m')) (hlen : 0 < size) : m'.KeepsApart := by
  rcases rightsAt_sealPages_cases h hlen with ⟨-, hsame⟩ | ⟨-, hsealed⟩
  · exact hm.congr hsame
  · refine hm.of_rights fun n ρ hρ => ?_
    rw [hsealed] at hρ
    split at hρ
    · cases hρ
      exact Or.inr rfl
    · exact Or.inl ⟨n, hρ⟩

/-- **Making execute-only memory keeps the two apart**, even where it is
mapped and cannot be sealed, or not be unmapped again. -/
theorem keepsApart_makeExecuteOnly (hw : w.machine.KeepsApart) (size : Nat) (code : List UInt8) :
    (w.makeExecuteOnly size code).2.machine.KeepsApart := by
  rcases w.makeExecuteOnly_stages size code with ⟨-, h⟩ | ⟨a, m, -, hmap, hstage⟩
  · exact hw.congr h.rightsAt
  · have hscratch : Rights.readWrite.isWriteExec = false := by decide
    have hcopied : (m.copy a code).KeepsApart :=
      (hw.map hmap hscratch).congr (Machine.rightsAt_copy m a code)
    have hsealed : ∀ {o m'}, sealPages (m.copy a code) a size = (o, m') → m'.KeepsApart :=
      fun hseal => keepsApart_sealPages hcopied hseal (Machine.aligned_of_map hmap).2
    rcases hstage with ⟨f, m', hseal, -, hv⟩ | ⟨key, m', hseal, -, hv⟩
    · rw [hv]
      exact (hsealed hseal).unmap rfl
    · have hready := (hsealed hseal).congr (rightsAt_isolation m' key)
      refine (hready.upkeep ?_).congr hv.rightsAt
      exact upkeep_enroll { w with machine := (isolation m' key).2 } _

/-! ## Every operation -/

/-- A move keeps the two apart, with tracking or without. -/
theorem keepsApart_relocate (hw : w.machine.KeepsApart) (q : MoveRequest) :
    (w.relocate q).2.machine.KeepsApart := by
  cases hcache : w.config.useMappingCache with
  | false =>
    unfold relocate
    rw [hcache]
    simp only [Bool.false_eq_true, if_false]
    split <;> rename_i hmove <;> exact hw.move hmove
  | true =>
    have hlifted := hw.upkeep (upkeep_lifted w q.address)
    rcases w.relocate_cases q hcache with ⟨e, m, hmove, -, h⟩ | ⟨moved, m, hmove, -, h⟩ <;> rw [h]
    · exact (hlifted.move hmove).upkeep
        (upkeep_restore { w.lifted q.address with machine := m } _ _ _)
    · exact (hlifted.move hmove).upkeep
        (upkeep_resettle { w.lifted q.address with machine := m } _ _ _)

/-- **Every operation keeps the two apart** where the rule is on, but for
the mapping of a file. -/
theorem keepsApart_perform (hrule : w.config.disallowRwx = true) (hw : w.machine.KeepsApart)
    {op : Operation} (hop : ∀ q, op = .create q → q.isAnonymous = true) :
    (w.perform op).2.machine.KeepsApart := by
  cases op with
  | create q =>
    show (w.create q).2.machine.KeepsApart
    rcases w.create_cases q with ⟨-, h⟩ | ⟨a, m, hmap, hok, h⟩
    · exact hw.congr h.rightsAt
    · have hpass := checkCreate_of_create (hop q rfl) hok
      have hmapped := hw.map hmap (Config.isWriteExec_of_checkCreate hrule hpass)
      exact (hmapped.upkeep (upkeep_settle { w with machine := m } q a)).congr h.rightsAt
  | remove a l =>
    show (w.remove a l).2.machine.KeepsApart
    rcases w.remove_cases a l with ⟨-, h⟩ | ⟨m, hunmap, -, h⟩
    · exact hw.congr h.rightsAt
    · rw [h]
      split
      · exact (hw.unmap hunmap).upkeep (upkeep_vacate { w with machine := m } a l)
      · exact hw.unmap hunmap
  | reprotect a l ρ =>
    show (w.reprotect a l ρ).2.machine.KeepsApart
    rcases w.reprotect_cases a l ρ with ⟨-, h⟩ | ⟨m, hprotect, hok, h⟩
    · exact hw.congr h.rightsAt
    · obtain ⟨_, hpass⟩ := checkReprotect_of_reprotect hok
      have hchanged := hw.protect hprotect (Config.isWriteExec_of_checkReprotect hrule hpass)
      rw [h]
      exact hchanged.upkeep (upkeep_note { w with machine := m } a l ρ)
  | relocate q => exact keepsApart_relocate hw q
  | makeExecuteOnly s c => exact keepsApart_makeExecuteOnly hw s c
  | releaseExecuteOnly a l =>
    show (w.releaseExecuteOnly a l).2.machine.KeepsApart
    rcases w.releaseExecuteOnly_cases a l with
      ⟨-, h⟩ | ⟨_, r, _, m, o, m', -, -, -, -, hm, hunmap, -, -, -, -, h⟩
    · exact hw.congr h.rightsAt
    · have hguards : w.machine.Upkeep m := by
        rcases hm with rfl | ⟨e, rfl⟩
        · exact Guard.upkeep_removeAll _ r
        · exact (Guard.upkeep_removeAll _ r).tell e
      exact ((hw.upkeep hguards).unmap hunmap).congr h
  | teardown => exact hw.upkeep (upkeep_teardown w)

/-! ## Runs -/

/-- **No page allows writing and executing at once**, at any time of a run
that begins with no page mapped and maps no file, where the rule is on:
in every other configuration, on every platform and under every fault,
whatever else the bits of a request say. -/
theorem write_and_execute_apart (hrule : w.config.disallowRwx = true)
    (hspace : w.machine.space.table = .empty) {ops : List Operation}
    (hops : ∀ q, .create q ∈ ops → q.isAnonymous = true) :
    w.Throughout (fun v => ∀ n ρ, v.machine.rightsAt n = some ρ →
      ¬ (ρ.has .write = true ∧ ρ.has .exec = true)) ops := by
  have hall : w.Throughout (fun v => v.machine.KeepsApart) ops := by
    refine throughout_of_steps (fun n ρ hρ => ?_) fun done op hdone hv => ?_
    · rw [Machine.rightsAt, hspace] at hρ
      cases hρ
    · refine keepsApart_perform ?_ hv fun q hq => hops q ?_
      · rw [config_run]
        exact hrule
      · exact hdone.subset (List.mem_append_right done (hq ▸ List.mem_cons_self))
  exact hall

/-- Scratch memory that can be neither tagged nor unmapped stays, but it
cannot be executed; a request for both is refused, with an unknown bit as
well as without. -/
theorem apart_after_failed_sealing :
    let faults : Faults := (Faults.never.schedule .keyProtect .inval 0 1).schedule .unmap .inval 0 1
    let w : Warden :=
      { config := { disallowRwx := true, useMappingCache := true }
        machine := { space := .emptyWithKeys, faults } }
    let ops : List Operation :=
      [.makeExecuteOnly 4096 [0xc3],
        .create ⟨0, 4096, ⟨0x80000007⟩, .privateAnonymous, -1, 0⟩,
        .reprotect 0x7efffffff000 4096 .exec]
    (w.run (ops.take 2)).machine.rightsAt 0x7efffffff = some .readWrite ∧
      (w.run ops).machine.rightsAt 0x7efffffff = some .exec ∧
      w.Throughout (fun v => ∀ n ρ, v.machine.rightsAt n = some ρ →
        ¬ (ρ.has .write = true ∧ ρ.has .exec = true)) ops := by
  refine ⟨rfl, rfl, write_and_execute_apart rfl rfl fun q hq => ?_⟩
  simp only [List.mem_cons, List.not_mem_nil, or_false, Operation.create.injEq, reduceCtorEq,
    false_or] at hq
  rw [hq]
  decide

end Warden

end PageWarden
