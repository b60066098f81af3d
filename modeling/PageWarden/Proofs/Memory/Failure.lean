import PageWarden.Proofs.Guard.Page
import PageWarden.Proofs.Memory.Key
import PageWarden.Proofs.Memory.Move
import PageWarden.Proofs.Path
/-!
# Memory — calls that fail

What fails should not have happened. A fault comes instead of the call,
and the arguments of a call are looked at before anything is done, so
nearly every call that fails leaves the pages and the keys as they were.

A move that must go elsewhere is the exception. Its pages are taken out
before room is looked for, so that they are not in their own way; and
where there is no room even then (`Space.Homeless`) the move fails without
them. No other call loses a page when it fails, and none a key
(`failed_keeps_memory_iff`).
-/

namespace PageWarden

/-- **The move has nowhere to go**: it is a mapping that may be moved and has
to be, since what is mapped behind it is in the way of its new length,
and without its own pages there is still no gap that is long enough. -/
structure Space.Homeless (s : Space) (q : MoveRequest) : Prop where
  aligned : Aligned q.address
  mapped : s.table.allMapped (pageOf q.address) (pagesFor q.length) = true
  uniform : s.table.isUniform (pageOf q.address) (pagesFor q.length) = true
  pages : 0 < q.length
  grows : pagesFor q.length < pagesFor q.newLength
  blocked : s.table.isFree (pageOf q.address + pagesFor q.length)
    (pagesFor q.newLength - pagesFor q.length) = false
  elsewhere : q.flags.mayMove = true
  anywhere : q.flags.fixed = false
  crowded : (s.table.erase (pageOf q.address) (pagesFor q.length)).topmostGap
    (pagesFor q.newLength) = none

namespace Act

/-- The call fails with an error number. Bytes are written, keys asked about
and given back without one. -/
def FailsWith (m : Machine) (e : Errno) : Act → Prop
  | .map q => (m.map q).1 = .error e
  | .unmap a l => (m.unmap a l).1 = .error e
  | .protect a l ρ => (m.protect a l ρ).1 = .error e
  | .move q => (m.move q).1 = .error e
  | .keyAlloc ρ => (m.keyAlloc ρ).1 = .error e
  | .keyProtect a l ρ κ => (m.keyProtect a l ρ κ).1 = .error e
  | .fill _ _ _ => False
  | .copy _ _ => False
  | .keyRights _ => False
  | .keyFree _ => False
  | .place _ => False

/-- The call is a move that has nowhere to go, and no fault comes before it. -/
def Homeless (m : Machine) : Act → Prop
  | .move q => m.Passes .move 1 ∧ m.space.Homeless q
  | .map _ => False
  | .unmap _ _ => False
  | .protect _ _ _ => False
  | .fill _ _ _ => False
  | .copy _ _ => False
  | .keyAlloc _ => False
  | .keyProtect _ _ _ _ => False
  | .keyRights _ => False
  | .keyFree _ => False
  | .place _ => False

end Act

/-! ## Moves -/

namespace Space

variable {s s' : Space} {q : MoveRequest} {e : Errno}

/-- **A move fails with all as it was, or has nowhere to go** and has lost its
pages. -/
theorem move_error_cases (h : s.move q = (.error e, s')) :
    (¬ s.Homeless q ∧ s'.table = s.table ∧ s'.keys = s.keys) ∨
      (s.Homeless q ∧
        s' = { s with table := s.table.erase (pageOf q.address) (pagesFor q.length) }) := by
  unfold move at h
  simp only at h
  split at h
  · rename_i hargs
    cases h
    refine Or.inl ⟨fun hq => ?_, rfl, rfl⟩
    rcases hargs with hodd | hzero
    · exact hodd hq.aligned
    · have hgrows := hq.grows
      rw [hzero] at hgrows
      exact absurd hgrows (Nat.not_lt_zero _)
  · rename_i hargs
    simp only [not_or, Classical.not_not] at hargs
    split at h
    · rename_i hrange
      cases h
      exact Or.inl ⟨fun hq => hrange ⟨hq.mapped, hq.uniform⟩, rfl, rfl⟩
    · rename_i hrange
      simp only [Classical.not_not] at hrange
      split at h
      · rename_i hfixed
        split at h
        · cases h
          exact Or.inl ⟨fun hq => Bool.false_ne_true (hq.anywhere.symm.trans hfixed), rfl, rfl⟩
        · cases h
      · rename_i hfixed
        split at h
        · cases h
        · rename_i hgrows
          split at h
          · rename_i hfree
            split at h
            · cases h
            · -- an empty range that would grow below everything: the program stops
              cases h
              exact Or.inl
                ⟨fun hq => Bool.false_ne_true (hq.blocked.symm.trans hfree), rfl, rfl⟩
          · rename_i hblocked
            split at h
            · rename_i hstay
              cases h
              exact Or.inl ⟨fun hq => hstay hq.elsewhere, rfl, rfl⟩
            · rename_i hmay
              rw [Classical.not_not] at hmay
              split at h
              · rename_i hcrowded
                cases h
                by_cases hpages : 0 < q.length
                · refine Or.inr ⟨⟨hargs.1, hrange.1, hrange.2, hpages, Nat.lt_of_not_le hgrows,
                    Bool.not_eq_true _ ▸ hblocked, hmay, Bool.not_eq_true _ ▸ hfixed, hcrowded⟩,
                    rfl⟩
                · -- of an empty range there is nothing to lose
                  refine Or.inl ⟨fun hq => hpages hq.pages, PageTable.ext_get? fun n => ?_, rfl⟩
                  have hzero : pagesFor q.length = 0 := pagesFor_eq_zero_iff.2 (by omega)
                  rw [PageTable.get?_erase, hzero]
                  refine if_neg fun hn => ?_
                  simp only [PageTable.InRange] at hn
                  omega
              · cases h

/-- What has nowhere to go has a page to lose. -/
theorem Homeless.old {s : Space} {q : MoveRequest} (hq : s.Homeless q) :
    q.Old (pageOf q.address) ∧ (s.table.get? (pageOf q.address)).isSome = true := by
  have hold : q.Old (pageOf q.address) := pageIn_first hq.aligned hq.pages
  exact ⟨hold, PageTable.allMapped_iff.1 hq.mapped _ ((inRange_iff_pageIn hq.aligned).2 hold)⟩

end Space

namespace Machine

variable {m m' : Machine} {q : MoveRequest} {c : Act} {e : Errno}

/-- A call that a fault comes before leaves memory alone. -/
theorem space_perform_of_not_passes {α : Type} {p : Primitive} (hm : ¬ m.Passes p 1)
    (act : Space → Except Errno α × Space) (entry : Except Errno α → Call) :
    (m.perform p act entry).2.space = m.space := by
  have hdue : ∃ errno, (m.faults.next p).1 = some errno := by
    unfold Faults.next
    split
    · rename_i hnil
      exact absurd (passes_of_unscheduled hnil 1) hm
    · rename_i fault rest hcons
      refine Option.ne_none_iff_exists'.1 fun hnone => hm fun x hx => ?_
      rw [hcons] at hx
      exact (List.mem_singleton.1 hx).trans hnone
  obtain ⟨errno, hdue⟩ := hdue
  simp only [perform, hdue]

/-- **What a move that fails leaves**: all there was, or all but its pages. -/
theorem space_of_move_error (h : m.move q = (.error e, m')) :
    m'.space.keys = m.space.keys ∧
      (¬ (Act.move q).Homeless m ∧ m'.pageAt = m.pageAt ∨
        (Act.move q).Homeless m ∧ ∀ n, m'.pageAt n = if q.Old n then none else m.pageAt n) := by
  by_cases hm : m.Passes .move 1
  · obtain ⟨hfst, hsnd⟩ := perform_of_passes hm (fun s => s.move q) (.move q)
    have hmove : m.space.move q = (.error e, m'.space) := by
      change (m.move q).1 = _ at hfst
      change (m.move q).2.space = _ at hsnd
      rw [h] at hfst hsnd
      exact Prod.ext hfst.symm hsnd.symm
    rcases Space.move_error_cases hmove with
      ⟨hhome, htable, hkeys⟩ | ⟨hhomeless, hspace⟩
    · refine ⟨hkeys, Or.inl ⟨fun hq => hhome hq.2, funext fun n => ?_⟩⟩
      rw [pageAt, htable, pageAt]
    · refine ⟨by rw [hspace], Or.inr ⟨⟨hm, hhomeless⟩, fun n => ?_⟩⟩
      have hold : q.Old n ↔ PageTable.InRange (pageOf q.address) (pagesFor q.length) n :=
        (inRange_iff_pageIn hhomeless.aligned).symm
      simp only [hold, pageAt, hspace, PageTable.get?_erase]
  · have hspace : m'.space = m.space := by
      have hsame := space_perform_of_not_passes hm (fun s => s.move q) (.move q)
      change (m.move q).2.space = _ at hsame
      rwa [h] at hsame
    exact ⟨by rw [hspace], Or.inl ⟨fun hq => hm hq.1, pageAt_of_space hspace⟩⟩

/-! ## All calls -/

/-- **A call other than a move leaves memory alone when it fails.** -/
theorem space_act_of_fails (h : c.FailsWith m e) (hc : ∀ q, c ≠ .move q) :
    (m.act c).space = m.space := by
  cases c with
  | map q => exact space_of_map_error (Prod.ext h rfl)
  | unmap a l => exact space_of_unmap_error (Prod.ext h rfl)
  | protect a l ρ => exact space_of_protect_error (Prod.ext h rfl)
  | move q => exact absurd rfl (hc q)
  | keyAlloc ρ =>
    rcases m.keyAlloc_cases ρ with ⟨errno, m', halloc, hspace, -⟩ | ⟨m', halloc, -⟩
    · show (m.keyAlloc ρ).2.space = m.space
      rw [halloc, hspace]
    · change (m.keyAlloc ρ).1 = _ at h
      rw [halloc] at h
      cases h
  | keyProtect a l ρ κ => exact space_of_keyProtect_error (Prod.ext h rfl)
  | fill | copy | keyRights | keyFree | place => exact h.elim

/-- **Whether a call that fails leaves memory as it was.** Whatever it is, on
every machine and under every fault: no key is lost or changed; and the
pages are what they were, with protection, key and bytes, exactly unless
it is a move that has nowhere to go. Such a move has lost its pages, and
no other page. -/
theorem failed_keeps_memory_iff (h : c.FailsWith m e) :
    (m.act c).space.keys = m.space.keys ∧
      ((m.act c).pageAt = m.pageAt ↔ ¬ c.Homeless m) ∧
      ∀ q, c = .move q → c.Homeless m →
        ∀ n, (m.act c).pageAt n = if q.Old n then none else m.pageAt n := by
  by_cases hc : ∃ q, c = .move q
  · obtain ⟨q, rfl⟩ := hc
    obtain ⟨hkeys, hpages⟩ := space_of_move_error (q := q) (Prod.ext h rfl)
    refine ⟨hkeys, ⟨fun hsame hlost => ?_, fun hhome => ?_⟩, ?_⟩
    · -- the first page was mapped and is not any more
      obtain ⟨hold, hsome⟩ := hlost.2.old
      have hgone := (hpages.resolve_left fun hno => hno.1 hlost).2 (pageOf q.address)
      rw [if_pos hold] at hgone
      change (m.act (.move q)).pageAt _ = none at hgone
      rw [hsame, pageAt] at hgone
      rw [hgone] at hsome
      cases hsome
    · exact (hpages.resolve_right fun hlost => hhome hlost.1).2
    · rintro _ ⟨⟩ hlost
      exact (hpages.resolve_left fun hno => hno.1 hlost).2
  · have hspace := space_act_of_fails h fun q hq => hc ⟨q, hq⟩
    have hhome : ¬ c.Homeless m := by
      cases c with
      | move q => exact absurd ⟨q, rfl⟩ hc
      | map | unmap | protect | fill | copy | keyAlloc | keyProtect | keyRights | keyFree
      | place => exact id
    exact ⟨by rw [hspace], iff_of_true (pageAt_of_space hspace) hhome,
      fun q hq => absurd ⟨q, hq⟩ hc⟩

/-- Two pages that lie next to each other below the ceiling. -/
def twoPages : Machine :=
  ((({ space := .empty } : Machine).map (.ofLength 4096 .readWrite)).2.map
    (.ofLength 4096 .read)).2

/-- The lower one is to grow beyond all bounds: it may be moved, finds no
room, and is gone. Where it may not be moved it stays. -/
theorem page_lost_by_a_homeless_move :
    let moved : Act := .move ⟨0x7effffffe000, 4096, 0x7f0000000000, ⟨1⟩, 0⟩
    let stuck : Act := .move ⟨0x7effffffe000, 4096, 0x7f0000000000, ⟨0⟩, 0⟩
    (moved.FailsWith twoPages .nomem ∧ (twoPages.act moved).pageAt ≠ twoPages.pageAt ∧
        (twoPages.act moved).pageAt (pageOf 0x7effffffe000) = none ∧
        (twoPages.pageAt (pageOf 0x7effffffe000)).isSome) ∧
      stuck.FailsWith twoPages .nomem ∧ (twoPages.act stuck).pageAt = twoPages.pageAt := by
  intro moved stuck
  have hfails : moved.FailsWith twoPages .nomem := rfl
  have hstuck : stuck.FailsWith twoPages .nomem := rfl
  have hlost : moved.Homeless twoPages :=
    ⟨passes_of_unscheduled rfl 1, by decide +kernel, by decide +kernel, by decide +kernel,
      by decide, by decide, by decide +kernel, by decide, by decide, by decide +kernel⟩
  obtain ⟨-, hiff, hpages⟩ := failed_keeps_memory_iff hfails
  refine ⟨⟨hfails, fun hsame => hiff.1 hsame hlost, ?_, by decide +kernel⟩, hstuck, ?_⟩
  · exact (hpages _ rfl hlost _).trans (if_pos (by decide))
  · exact (failed_keeps_memory_iff hstuck).2.1.2 fun hq =>
      absurd hq.2.elsewhere Bool.false_ne_true

end Machine

end PageWarden
