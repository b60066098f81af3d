import PageWarden.Proofs.Tenant.Operation
import PageWarden.Proofs.Unguarded
/-!
# Spared pages — whose memory an operation may destroy

An operation is asked to act on a range, and guards are the warden's own;
every other page is somebody else's. A call takes a mapped page if the
page is gone afterwards or something else is mapped in its place
(`Act.Takes`), and it spares what is foreign if it takes nothing but pages
of the range asked for and guards (`Spares`).

Whoever unmaps a guard relies on a field of a record. While these fields
are reliable (`Reliable`) every call spares what is foreign
(`spares_foreign_pages`). A move that takes guards along without their
record ends that: the field it leaves behind is lifted later, whatever is
mapped there by then.
-/

namespace PageWarden

/-- The call maps something at page `n`. -/
def Act.Fills (m : Machine) (n : Nat) : Act → Prop
  | .map q => ∃ a, (m.map q).1 = .ok a ∧ PageIn a (a + roundUp q.length pageSize) n
  | .move q => ∃ moved, (m.move q).1 = .ok moved ∧ q.New moved n
  | .place a => ∃ got, (m.map (Guard.request a)).1 = .ok got ∧
      PageIn got (got + roundUp pageSize pageSize) n
  | .unmap _ _ => False
  | .protect _ _ _ => False
  | .fill _ _ _ => False
  | .copy _ _ => False
  | .keyAlloc _ => False
  | .keyProtect _ _ _ _ => False
  | .keyRights _ => False
  | .keyFree _ => False

/-- The call takes page `n`: it is mapped, and is gone afterwards or
replaced. -/
def Act.Takes (m : Machine) (n : Nat) (c : Act) : Prop :=
  (m.pageAt n).isSome ∧ ((m.act c).pageAt n = none ∨ c.Fills m n)

/-- **The call spares what is foreign**: what it takes was asked for, or is
a guard at that moment. -/
def Spares (asked : Nat → Prop) (m : Machine) (c : Act) : Prop :=
  ∀ n, c.Takes m n → asked n ∨ m.tenant n = some .guard

variable {m m' : Machine} {asked : Nat → Prop} {X : Nat → Prop} {V V' : View}

/-! ## What calls take -/

/-- What a call does not map anything at keeps its tenant. -/
theorem Act.tenant_of_not_fills {c : Act} {n : Nat} (hc : ¬ c.Fills m n) :
    (m.act c).tenant n = m.tenant n := by
  cases c with
  | map q =>
    show (m.map q).2.tenant n = _
    rcases hmap : m.map q with ⟨errno | a, m'⟩
    · rw [Machine.tenant_map_error hmap]
    · rw [Machine.tenant_map hmap, if_neg]
      exact fun hin => hc ⟨a, congrArg Prod.fst hmap, hin⟩
  | move q =>
    show (m.move q).2.tenant n = _
    rcases hmove : m.move q with ⟨errno | moved, m'⟩
    · rw [Machine.tenant_move_error hmove]
    · rw [Machine.tenant_move hmove, if_neg]
      exact fun hin => hc ⟨moved, congrArg Prod.fst hmove, hin⟩
  | place a =>
    exact Guard.tenant_place_of_not_pageIn fun hmap hin => hc ⟨_, congrArg Prod.fst hmap, hin⟩
  | unmap a l => exact congrFun (Machine.tenant_unmap m a l) n
  | keyFree κ => exact congrFun (Machine.tenant_keyFree m κ) n
  | protect a l ρ => exact congrFun (Machine.tenant_act_of_idle (c := .protect a l ρ) trivial) n
  | fill a l byte => exact congrFun (Machine.tenant_act_of_idle (c := .fill a l byte) trivial) n
  | copy a bytes => exact congrFun (Machine.tenant_act_of_idle (c := .copy a bytes) trivial) n
  | keyAlloc ρ => exact congrFun (Machine.tenant_act_of_idle (c := .keyAlloc ρ) trivial) n
  | keyProtect a l ρ κ =>
    exact congrFun (Machine.tenant_act_of_idle (c := .keyProtect a l ρ κ) trivial) n
  | keyRights κ => exact congrFun (Machine.tenant_act_of_idle (c := .keyRights κ) trivial) n

/-- **Foreign memory stays mapped along a path that spares it.** -/
theorem Machine.Path.isSome_of_spares {n : Nat} (h : m.Path (Spares asked) m')
    (hn : (m.pageAt n).isSome) (hasked : ¬ asked n) (hguard : m.tenant n ≠ some .guard) :
    (m'.pageAt n).isSome := by
  -- a page that is no guard must be known to stay none, for the calls that follow
  have hinv : (m'.pageAt n).isSome ∧ m'.tenant n ≠ some .guard := by
    induction h with
    | refl => exact ⟨hn, hguard⟩
    | tell _ he ih => exact ⟨ih.1, by rw [Machine.tenant_tell _ he]; exact ih.2⟩
    | @act v _ c hc ih =>
      have hnot : ¬ c.Takes v n := fun htakes => (hc n htakes).elim hasked ih.2
      have hkept : ¬ ((v.act c).pageAt n = none ∨ c.Fills v n) := fun htaken => hnot ⟨ih.1, htaken⟩
      rw [not_or] at hkept
      refine ⟨Option.isSome_iff_ne_none.2 hkept.1, ?_⟩
      rw [Act.tenant_of_not_fills hkept.2]
      exact ih.2
  exact hinv.1

/-- Free pages are not taken. -/
theorem spares_of_free {c : Act}
    (hgone : ∀ n, (m.pageAt n).isSome → ((m.act c).pageAt n).isSome)
    (hfree : ∀ n, c.Fills m n → m.rightsAt n = none) : Spares asked m c := by
  rintro n ⟨hsome, hnone | hfills⟩
  · have hkept := hgone n hsome
    rw [hnone] at hkept
    cases hkept
  · have hnone : m.pageAt n = none := Machine.rightsAt_eq_none_iff.1 (hfree n hfills)
    rw [hnone] at hsome
    cases hsome

/-- **Idle calls and attempts to place a guard take nothing.** -/
theorem lenient_spares (asked : Nat → Prop) : Machine.Lenient (Spares asked) := by
  constructor
  · intro v c hc
    refine spares_of_free (fun n hn => ?_) fun n hfills => ?_
    · rw [Machine.isSome_act_of_idle hc]
      exact hn
    · cases c with
      | map q =>
        obtain ⟨errno, herror⟩ := hc
        obtain ⟨a, hok, -⟩ := hfills
        rw [herror] at hok
        cases hok
      | move q => exact hc.elim
      | place a => exact hc.elim
      | unmap | protect | fill | copy | keyAlloc | keyProtect | keyRights | keyFree =>
        exact hfills.elim
  · intro v a
    refine spares_of_free (fun n hn => ?_) ?_
    · rcases Guard.pageAt_place v a n with hsame | ⟨hfree, -⟩
      · show ((Guard.place v a).2.pageAt n).isSome
        rw [hsame]
        exact hn
      · rw [hfree] at hn
        cases hn
    · rintro n ⟨got, hok, hin⟩
      exact Machine.rightsAt_of_map_of_not_fixed (Prod.ext hok rfl) (Guard.fixed_request a) hin

/-- A mapping takes pages of its range only, and none that were free. -/
theorem spares_map {q : MapRequest} {a : Nat} (hmap : m.map q = (.ok a, m'))
    (hasked : ∀ n, PageIn a (a + roundUp q.length pageSize) n → asked n ∨ m.rightsAt n = none) :
    Spares asked m (.map q) := by
  have hin : ∀ n, (Act.map q).Takes m n → PageIn a (a + roundUp q.length pageSize) n := by
    rintro n ⟨hsome, hgone | ⟨a', hok, hin⟩⟩
    · by_contra hout
      have hgone : (m.map q).2.pageAt n = none := hgone
      rw [hmap, Machine.pageAt_map hmap, if_neg hout] at hgone
      rw [hgone] at hsome
      cases hsome
    · rw [hmap] at hok
      cases hok
      exact hin
  intro n htakes
  refine (hasked n (hin n htakes)).imp_right fun hfree => ?_
  have hnone : m.pageAt n = none := Machine.rightsAt_eq_none_iff.1 hfree
  have hsome := htakes.1
  rw [hnone] at hsome
  cases hsome

/-- An unmapping takes pages of its range only. -/
theorem mem_of_takes_unmap {a l n : Nat} (h : (Act.unmap a l).Takes m n) :
    Aligned a ∧ PageIn a (a + roundUp l pageSize) n := by
  obtain ⟨hsome, hgone | hfills⟩ := h
  · have hgone : (m.unmap a l).2.pageAt n = none := hgone
    rcases hunmap : m.unmap a l with ⟨errno | ⟨⟩, m'⟩ <;> rw [hunmap] at hgone
    · rw [← Machine.pageAt_of_space (Machine.space_of_unmap_error hunmap), hgone] at hsome
      cases hsome
    · refine ⟨(Machine.aligned_of_unmap hunmap).1, ?_⟩
      by_contra hout
      rw [Machine.pageAt_unmap hunmap, if_neg hout] at hgone
      rw [hgone] at hsome
      cases hsome
  · exact hfills.elim

/-- A move takes pages of its old and its new range only. -/
theorem spares_move {q : MoveRequest} {o : Except Errno Nat} (hmove : m.move q = (o, m'))
    (hold : ∀ n, q.Old n → asked n) (hnew : ∀ moved n, o = .ok moved → q.New moved n → asked n) :
    Spares asked m (.move q) := by
  rintro n ⟨hsome, hgone | ⟨moved, hok, hin⟩⟩
  · have hgone : (m.move q).2.pageAt n = none := hgone
    rw [hmove] at hgone
    refine Or.inl ?_
    by_contra hout
    have hkept : m'.pageAt n = m.pageAt n := by
      cases o with
      | ok moved =>
        rw [Machine.pageAt_move hmove fun hin => hout (hnew moved n rfl hin),
          if_neg fun hin => hout (hold n hin)]
      | error errno =>
        rcases Machine.pageAt_move_error hmove with hsame | hlost
        · rw [hsame]
        · rw [hlost, if_neg fun hin => hout (hold n hin)]
    rw [← hkept, hgone] at hsome
    cases hsome
  · rw [hmove] at hok
    exact Or.inl (hnew moved n hok hin)

/-- Giving a key back takes nothing. -/
theorem spares_keyFree (m : Machine) (κ : Nat) : Spares asked m (.keyFree κ) := by
  refine spares_of_free (fun n hn => ?_) fun _ hfills => hfills.elim
  show ((m.keyFree κ).pageAt n).isSome
  unfold Machine.keyFree
  split <;> exact hn

/-! ## Guard fields -/

/-- **Guard fields can be relied on**, but for the pages in `X`: records are
right about their pages, or no record has a guard. -/
def Reliable (X : Nat → Prop) (V : View) (m : Machine) : Prop := Titled X V m ∨ V.Unguarded

namespace Reliable

/-- Pages may be taken that are exempt from now on. -/
theorem machine {Y : Nat → Prop} (hr : Reliable X V m)
    (hsame : ∀ n, ¬ Y n → m'.tenant n = m.tenant n) (hXY : ∀ n, X n → Y n) : Reliable Y V m' :=
  hr.imp_left fun ht => ht.machine hsame hXY

/-- Clearing leaves guard fields reliable. -/
theorem clearing {start stop : Nat} {keep : Option Handle} (hr : Reliable X V m)
    (hstart : Aligned start) (hstop : Aligned stop) (hc : Clearing start stop keep V m V' m') :
    Reliable X V' m' :=
  hr.imp (fun ht => ht.clearing hstart hstop hc) fun hV => hV.clearing hc

/-- **A reliable guard field names a guard**, so lifting it spares what is
foreign. -/
theorem spares_lift (hV : Reliable X V m) (hX : ∀ n, X n → asked n) {k : Handle} {r : Record}
    {g : Nat} (hr : V k = some r) (hg : r.guardBelow = some g ∨ r.guardAbove = some g) :
    Spares asked m (.unmap g pageSize) := by
  intro n htakes
  obtain ⟨ha, hin⟩ := mem_of_takes_unmap htakes
  have hpage : n * pageSize = g := (Guard.pageIn_page ha).1 hin
  have hheld : ∃ p, p ≠ .body ∧ r.Holds p n := by
    rcases hg with hg | hg
    · exact ⟨.below, by decide, hg.trans (congrArg some hpage.symm)⟩
    · exact ⟨.above, by decide, hg.trans (congrArg some hpage.symm)⟩
  obtain ⟨p, hp, hheld⟩ := hheld
  rcases hV with ht | hbare
  · by_cases hn : X n
    · exact Or.inl (hX n hn)
    · exact Or.inr (ht.guard hr hp hheld hn)
  · exact absurd (Record.eq_body_of_holds (hbare k r hr) hheld) hp

end Reliable

/-- **Clearing spares what is foreign** while guard fields are reliable. -/
theorem Clearing.spares {start stop : Nat} {keep : Option Handle}
    (hc : Clearing start stop keep V m V' m') (hV : Reliable X V m) (hstart : Aligned start)
    (hstop : Aligned stop) (hX : ∀ n, X n → asked n) : m.Path (Spares asked) m' :=
  hc.path (fun hc' hr hg => (hV.clearing hstart hstop hc').spares_lift hX hr hg)
    fun _ _ _ => spares_keyFree _ _

namespace Warden

variable {w : Warden}

/-- **The range that an operation is asked to act on**: where a mapping
was made, what is released, both ranges of a move, the execute-only memory
that is found. -/
def Asked (w : Warden) : Operation → Nat → Prop
  | .create q, n => ∃ a, (w.create q).1 = .ok a ∧ PageIn a (a + roundUp q.length pageSize) n
  | .remove a l, n => PageIn a (a + roundUp l pageSize) n
  | .relocate q, n => q.Old n ∨ ∃ moved, (w.relocate q).1 = .ok moved ∧ q.New moved n
  | .releaseExecuteOnly a _, n => ∃ r, w.lookup a = some r ∧ r.executeOnly.isSome ∧ r.Covers n
  | .reprotect _ _ _, _ => False
  | .makeExecuteOnly _ _, _ => False
  | .teardown, _ => False

/-- **The operation is considerate**: each of its calls spares what is
foreign. -/
def Considerate (w : Warden) (op : Operation) : Prop :=
  w.machine.Path (Spares (w.Asked op)) (w.perform op).2.machine

/-- A move spares what is foreign. -/
theorem spares_relocate (hs : w.store.Shaped) (hw : Reliable Nowhere w.store.get? w.machine)
    (q : MoveRequest) :
    w.machine.Path (Spares (w.Asked (.relocate q))) (w.relocate q).2.machine := by
  have hA := lenient_spares (w.Asked (.relocate q))
  by_cases hcache : w.config.useMappingCache = true
  · have hlifting := clearing_lifted w q.address 0 0 none
    have hlifted := hw.clearing aligned_zero aligned_zero hlifting
    refine path_relocate hA hs hcache ?_ (fun hmove hok => ?_)
      fun {moved m V m'} hmove hok hclear => ?_
    · exact hlifting.spares hw rfl rfl fun _ hX => hX.elim
    · exact spares_move hmove (fun n hn => Or.inl hn)
        fun moved n heq hn => Or.inr ⟨moved, hok moved heq, hn⟩
    · obtain ⟨-, ha, -⟩ := Machine.aligned_of_move hmove
      have hmoved : Reliable (q.New moved) (w.lifted q.address).store.get? m := by
        refine hlifted.machine (fun n hn => ?_) fun _ hX => hX.elim
        rw [Machine.tenant_move hmove, if_neg hn]
      exact hclear.spares hmoved ha (ha.add_roundUp _) fun n hn => Or.inr ⟨moved, hok, hn⟩
  · refine path_relocate_of_not_cache (Bool.eq_false_iff.2 hcache) fun hmove hok => ?_
    exact spares_move hmove (fun n hn => Or.inl hn)
      fun moved n heq hn => Or.inr ⟨moved, hok moved heq, hn⟩

/-- Releasing execute-only memory spares what is foreign. -/
theorem spares_releaseExecuteOnly (hw : Reliable Nowhere w.store.get? w.machine) (a l : Nat) :
    w.machine.Path (Spares (w.Asked (.releaseExecuteOnly a l)))
      (w.releaseExecuteOnly a l).2.machine := by
  refine path_releaseExecuteOnly (lenient_spares _) (fun {h r} _ hr _ => ?_)
    (fun {h r m} hfind hr hxo _ n htakes => ?_) fun _ _ _ _ _ _ => spares_keyFree _ _
  · have hlift : Clearing 0 0 none w.store.get? w.machine _ _ := Clearing.refl.liftAll hr
    exact hlift.spares hw rfl rfl fun _ hX => hX.elim
  · refine Or.inl ⟨r, ?_, hxo, (mem_of_takes_unmap htakes).2⟩
    rw [lookup, Store.lookup, hfind, Option.bind_some, hr]

/-- Giving up everything takes no page. -/
theorem spares_teardown (w : Warden) :
    w.machine.Path (Spares asked) w.teardown.machine := by
  have hkeys : ∀ (keys : List Nat) (v : Machine), v.Path (Spares asked)
      (keys.foldl Machine.keyFree v) := by
    intro keys
    induction keys with
    | nil => exact fun v => .refl
    | cons κ keys ih =>
      intro v
      exact (Machine.Path.refl.act (.keyFree κ) (spares_keyFree v κ)).trans (ih _)
  exact (hkeys _ _).tell rfl

/-- **An operation is considerate**, where guard fields are reliable. -/
theorem considerate_of_reliable (hs : w.store.Shaped) (hw : Reliable Nowhere w.store.get? w.machine)
    (hfaults : w.machine.faults = .never) (op : Operation) : w.Considerate op := by
  have hA := lenient_spares (w.Asked op)
  cases op with
  | create q =>
    refine path_create hA hs (fun hmap hok => ?_) fun {a m V m'} _ hmap hok hclear => ?_
    · exact spares_map hmap fun n hn => Or.inl ⟨_, hok, hn⟩
    · have hmapped : Reliable (PageIn a (a + roundUp q.length pageSize)) w.store.get? m := by
        refine hw.machine (fun n hn => ?_) fun _ hX => hX.elim
        rw [Machine.tenant_map hmap, if_neg hn]
      have ha := (Machine.aligned_of_map hmap).1
      exact hclear.spares hmapped ha (ha.add_roundUp _) fun n hn => ⟨a, hok, hn⟩
  | remove a l =>
    refine path_remove hA hs (fun _ n htakes => Or.inl (mem_of_takes_unmap htakes).2)
      fun {m V m'} _ hunmap hclear => ?_
    have htenant := Machine.tenant_unmap w.machine a l
    rw [hunmap] at htenant
    have ha := (Machine.aligned_of_unmap hunmap).1
    have hunmapped : Reliable Nowhere w.store.get? m := hw.imp_left fun ht => ht.same htenant
    exact hclear.spares hunmapped ha (ha.add_roundUp _) fun _ hX => hX.elim
  | reprotect a l ρ => exact (path_reprotect w a l ρ).ofIdle hA
  | relocate q => exact spares_relocate hs hw q
  | makeExecuteOnly s c =>
    refine path_makeExecuteOnly hA (fun hmap => ?_) fun hmap => sealPages_of_reserved hfaults hmap c
    exact spares_map hmap fun n hn => Or.inr (rightsAt_of_reserved hmap hn)
  | releaseExecuteOnly a l => exact spares_releaseExecuteOnly hw a l
  | teardown => exact spares_teardown w

/-! ## Runs -/

/-- **No operation destroys memory that is not its own.** Over every run
that begins without records, without guards or where no move strands
pages, and while nothing is scheduled to fail: every call that an
operation makes takes pages of the range that the operation was asked to
act on, or pages that are guards at that moment, and no other. -/
theorem spares_foreign_pages (hempty : w.store = .empty) (hfaults : w.machine.faults = .never)
    {ops : List Operation} (hno : w.config.guardPagesActive = false ∨ w.Avoids Strands ops)
    {done : List Operation} {op : Operation} (hdone : done ++ [op] <+: ops) :
    (w.run done).Considerate op := by
  have hreliable : Reliable Nowhere (w.run done).store.get? (w.run done).machine := by
    rcases hno with hoff | hno
    · exact Or.inr (unguarded_run hempty hoff done)
    · exact Or.inl ((rightful_of_avoids hempty hno).before hdone).titled
  exact considerate_of_reliable (shaped_run (shaped_of_empty hempty) done) hreliable
    (faults_run hfaults done) op

/-- A move that takes the guard of a record along. Execute-only memory gets
the guard's old place, and is unmapped as the record is released. Where
nothing is moved the release is considerate. -/
theorem execute_only_memory_unmapped_as_a_guard :
    ¬ ((Warden.start { useMappingCache := true, enableGuardPages := true }).run
        [.create ⟨0, 4096, .readWrite, .privateAnonymous, -1, 0⟩,
          .relocate ⟨0x7effffffe000, 4096, 4096, ⟨3⟩, 0x1000000000⟩,
          .makeExecuteOnly 4096 [0xc3]]).Considerate (.remove 0x7efffffff000 4096) ∧
    ((Warden.start { useMappingCache := true, enableGuardPages := true }).run
        [.create ⟨0, 4096, .readWrite, .privateAnonymous, -1, 0⟩,
          .makeExecuteOnly 4096 [0xc3]]).Considerate (.remove 0x7efffffff000 4096) := by
  constructor
  · intro hpath
    have hkept := hpath.isSome_of_spares (n := pageOf 0x7effffffe000) ?_ ?_ ?_
    · revert hkept
      decide
    · rfl
    · show ¬ PageIn 0x7efffffff000 (0x7efffffff000 + roundUp 4096 pageSize) _
      decide
    · decide
  · refine spares_foreign_pages rfl rfl (Or.inr ?_) (List.prefix_refl _)
    exact avoids_cons.2 ⟨id, avoids_cons.2 ⟨id, avoids_cons.2 ⟨id, avoids_nil⟩⟩⟩

end Warden

end PageWarden
