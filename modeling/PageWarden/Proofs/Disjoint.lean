import PageWarden.Proofs.InStep.Operation
/-!
# Disjoint ranges — when records overlap

The whole-page ranges of distinct records should never meet. Every
request that brings pages into the store carves their range out of the
other records first, except one: execute-only memory is mapped where the
machine finds room, and its record is entered beside whatever the store
says of the place. So records overlap exactly when a record covers pages
that execute-only memory was just given (`Warden.Intrudes`), which takes
a record that covers pages that are not mapped; and such records are left
behind by moves that strand pages, and by nothing else
(`disjoint_throughout_iff`).
-/

namespace PageWarden

namespace Store

variable {s t : Store} {h : Handle} {q : Record}

/-- The whole-page ranges of distinct records do not meet. -/
def Disjoint (s : Store) : Prop :=
  ∀ h k q r, h ≠ k → s.get? h = some q → s.get? k = some r →
    q.stop pageSize ≤ r.base ∨ r.stop pageSize ≤ q.base

/-- No page is covered by two records. -/
def Apart (s : Store) : Prop :=
  ∀ h k q r n, s.bare? h = some q → s.bare? k = some r → q.Covers n → r.Covers n → h = k

/-- The first page of a record is its own. -/
theorem covers_first {r : Record} (hr : r.Shaped) : r.Covers (pageOf r.base) :=
  pageIn_first hr.1 hr.2

/-- **Ranges are disjoint when no page is covered twice**: where two ranges
meet, the first page of one lies in the other. -/
theorem disjoint_iff_apart (hs : s.Shaped) : s.Disjoint ↔ s.Apart := by
  constructor
  · intro hd h k q r n hq hr hqn hrn
    obtain ⟨q', hq', rfl⟩ := exists_get?_of_bare? hq
    obtain ⟨r', hr', rfl⟩ := exists_get?_of_bare? hr
    by_contra hne
    have hq : q'.base ≤ n * pageSize ∧ n * pageSize < q'.stop pageSize := hqn
    have hr : r'.base ≤ n * pageSize ∧ n * pageSize < r'.stop pageSize := hrn
    have hout := hd h k q' r' hne hq' hr'
    omega
  · intro ha h k q r hne hq hr
    -- of two ranges that meet, the one that begins later begins in the other
    by_contra hmeet
    have hbase := pageOf_mul_pageSize (hs h q hq).1
    have hbase' := pageOf_mul_pageSize (hs k r hr).1
    refine hne ?_
    rcases Nat.le_total q.base r.base with hle | hle
    · refine ha h k _ _ (pageOf r.base) (bare?_of_get? hq) (bare?_of_get? hr) ?_
        (covers_first (hs k r hr))
      show PageIn q.base (q.stop pageSize) (pageOf r.base)
      unfold PageIn
      omega
    · refine ha h k _ _ (pageOf q.base) (bare?_of_get? hq) (bare?_of_get? hr)
        (covers_first (hs h q hq)) ?_
      show PageIn r.base (r.stop pageSize) (pageOf q.base)
      unfold PageIn
      omega

/-- Guards have no part in it. -/
theorem apart_congr (hst : t.bare? = s.bare?) (hs : s.Apart) : t.Apart := by
  unfold Apart
  rw [hst]
  exact hs

/-- With one record changed, the others are apart as before. -/
theorem apart_update {o : Option Record} (hs : s.Apart)
    (ht : t.bare? = Function.update s.bare? h o)
    (ho : ∀ q k r n, o = some q → k ≠ h → s.bare? k = some r → r.Covers n → ¬ q.Covers n) :
    t.Apart := by
  intro j k q r n hq hr hqn hrn
  rw [ht, Function.update_apply] at hq hr
  by_cases hj : j = h <;> by_cases hk : k = h
  · exact hj.trans hk.symm
  · rw [if_pos hj] at hq
    rw [if_neg hk] at hr
    exact absurd hqn (ho q k r n hq hk hr hrn)
  · rw [if_neg hj] at hq
    rw [if_pos hk] at hr
    exact absurd hrn (ho r j q n hr hj hq hqn)
  · rw [if_neg hj] at hq
    rw [if_neg hk] at hr
    exact hs j k q r n hq hr hqn hrn

end Store

namespace Warden

variable {w : Warden} {h : Handle} {r : Record} {start stop : Nat}

/-! ## Cuts and carves -/

/-- **A cut keeps records apart**: the two parts share no page, and cover
none that the record did not. -/
theorem apart_cut (hs : w.store.Shaped) (ha : w.store.Apart) (hstart : Aligned start)
    (hstop : Aligned stop) (hle : start ≤ stop) (hr : w.store.get? h = some r)
    (hm : r.Meets start stop) (guarded : Bool) :
    (w.cut h start stop guarded).store.Apart := by
  have hshaped : r.bare.Shaped := hs h r hr
  have hold := Store.bare?_of_get? hr
  have hpart : ∀ {q n}, r.bare.PartOf start stop q → q.Covers n → r.bare.Covers n :=
    fun hq hn => ((Record.covers_parts hshaped hstart hstop hm _).1 ⟨_, hq, hn⟩).1
  have hclash : ∀ {t u n}, r.bare.kept start stop = some t → r.bare.splitOff start stop = some u →
      t.Covers n → ¬ u.Covers n :=
    Record.not_covers_kept_and_splitOff hshaped hstart hstop hle hm
  -- each side is one of the two parts or another record, and a part covers what was the record's
  intro j k q s n hq hs' hqn hsn
  rcases (bare?_cut_eq_some_iff hr guarded).1 hq with ⟨hj, hq⟩ | ⟨hj, hq⟩ | ⟨hj, hq⟩ <;>
    rcases (bare?_cut_eq_some_iff hr guarded).1 hs' with ⟨hk, hs'⟩ | ⟨hk, hs'⟩ | ⟨hk, hs'⟩
  · exact hj.trans hk.symm
  · exact absurd hsn (hclash hq hs' hqn)
  · have hn := hpart (Record.partOf_iff.2 (Or.inl hq)) hqn
    exact absurd (ha h k _ _ n hold hs' hn hsn).symm hk
  · exact absurd hqn (hclash hs' hq hsn)
  · exact hj.trans hk.symm
  · have hn := hpart (Record.partOf_iff.2 (Or.inr hq)) hqn
    exact absurd (ha h k _ _ n hold hs' hn hsn).symm hk
  · have hn := hpart (Record.partOf_iff.2 (Or.inl hs')) hsn
    exact absurd (ha j h _ _ n hq hold hqn hn) hj
  · have hn := hpart (Record.partOf_iff.2 (Or.inr hs')) hsn
    exact absurd (ha j h _ _ n hq hold hqn hn) hj
  · exact ha j k q s n hq hs' hqn hsn

/-- **A carve keeps records apart.** -/
theorem apart_carve (hs : w.store.Shaped) (ha : w.store.Apart) (hstart : Aligned start)
    (hstop : Aligned stop) (hle : start ≤ stop) (keep : Option Handle) :
    (w.carve start stop keep).store.Apart := by
  have hinv : (w.carve start stop keep).store.Shaped ∧ (w.carve start stop keep).store.Apart := by
    refine carve_induction (motive := fun _ v => v.store.Shaped ∧ v.store.Apart) ⟨?_, ?_⟩ ?_
    · rw [Store.shaped_iff, bare?_forgetGuards, ← Store.shaped_iff]
      exact hs
    · exact Store.apart_congr (bare?_forgetGuards w start stop) ha
    · intro v h r _ ⟨hshaped, hv⟩ hr hm _
      exact ⟨shaped_cut (w := v.tell _) hshaped hstop h false,
        apart_cut (w := v.tell _) hshaped hv hstart hstop hle hr hm false⟩
  exact hinv.2

/-- After a carve no other record covers a page of the range. -/
theorem not_pageIn_of_carve {keep : Option Handle} {k : Handle} {q : Record} {n : Nat}
    (hs : w.store.Shaped) (hstart : Aligned start) (hstop : Aligned stop) (hk : some k ≠ keep)
    (hq : (w.carve start stop keep).store.bare? k = some q) (hn : q.Covers n) :
    ¬ PageIn start stop n := by
  intro hin
  obtain ⟨r, hr, rfl⟩ := Store.exists_get?_of_bare? hq
  exact hk (keep_of_meets_carve hs hstart hstop hr (Record.meets_of_covers hn hin))

/-! ## Follow-ups -/

/-- A record may enter for pages that no other covers. -/
theorem apart_enroll (ha : w.store.Apart)
    (hfree : ∀ k q n, w.store.bare? k = some q → q.Covers n → ¬ r.Covers n) :
    (w.enroll r).store.Apart := by
  refine Store.apart_update ha (bare?_enroll w r) ?_
  rintro q k s n ⟨⟩ - hs hn
  exact hfree k s n hs hn

/-- Following up a mapping keeps records apart. -/
theorem apart_settle {q : MapRequest} {a : Nat} (hs : w.store.Shaped) (hw : w.store.Apart)
    (ha : Aligned a) : (w.settle q a).store.Apart := by
  have hstop := ha.add_roundUp q.length
  have hcarved := apart_carve hs hw ha hstop (Nat.le_add_right _ _) none
  unfold settle
  split
  · split
    · rw [(alike_track _ _ _ _).store]
      refine apart_enroll hcarved fun k s n hk hn => ?_
      exact not_pageIn_of_carve hs ha hstop (Option.some_ne_none k) hk hn
    · exact hcarved
  · exact hw

/-- Following up a release keeps records apart. -/
theorem apart_vacate {a l : Nat} (hs : w.store.Shaped) (hw : w.store.Apart) (ha : Aligned a)
    (hlen : 0 < l) : (w.vacate a l).store.Apart := by
  have hstop := ha.add_roundUp l
  have hle : a ≤ a + roundUp l pageSize := Nat.le_add_right _ _
  rcases vacate_cases hs ha hlen with ⟨-, hv⟩ | ⟨h, f, -, -, hkept, hmeets, hv⟩
  · rw [hv]
    exact apart_carve hs hw ha hstop hle none
  · rw [hv]
    exact apart_cut (shaped_carve hs hstop (some h)) (apart_carve hs hw ha hstop hle (some h)) ha
      hstop hle hkept hmeets _

/-- Noting a protection moves no record. -/
theorem apart_note {a l : Nat} {ρ : Rights} (hw : w.store.Apart) : (w.note a l ρ).store.Apart := by
  cases hfound : w.found a with
  | none =>
    rw [note_of_not_found hfound]
    exact hw
  | some h =>
    obtain ⟨r, hr⟩ := exists_of_found hfound
    refine Store.apart_update hw (bare?_note hfound hr) ?_
    rintro q k s n ⟨⟩ hk hs hn hr'
    exact hk (hw k h s _ n hs (Store.bare?_of_get? hr) hn hr')

/-- Following up a move keeps records apart. -/
theorem apart_resettle {q : MoveRequest} {moved : Nat} {found : Option Handle}
    (hs : w.store.Shaped) (hw : w.store.Apart) (ha : Aligned moved) (hlive : w.Live found) :
    (w.resettle found q moved).store.Apart := by
  have hstop := ha.add_roundUp q.newLength
  have hcarved := apart_carve hs hw ha hstop (Nat.le_add_right _ _) found
  cases found with
  | none => exact hcarved
  | some h =>
    obtain ⟨r, hr⟩ := Option.isSome_iff_exists.1 (hlive h rfl)
    refine Store.apart_update hcarved (bare?_resettle hr) ?_
    rintro - k s n ⟨⟩ hk hs' hn
    exact not_pageIn_of_carve hs ha hstop (fun heq => hk (Option.some.inj heq)) hs' hn

/-! ## Operations and runs -/

/-- The operation is given execute-only memory on a page that a record
covers. -/
def Intrudes (w : Warden) : Operation → Prop
  | .makeExecuteOnly s c => ∃ a k r n, (w.makeExecuteOnly s c).1 = .ok a ∧
      w.store.get? k = some r ∧ r.Covers n ∧ PageIn a (a + roundUp s pageSize) n
  | _ => False

/-- A move keeps records apart. -/
theorem apart_relocate (hs : w.store.Shaped) (hw : w.store.Apart) (q : MoveRequest) :
    (w.relocate q).2.store.Apart := by
  cases hcache : w.config.useMappingCache with
  | false =>
    rw [(w.store_relocate_of_not_cache q hcache).1]
    exact hw
  | true =>
    have hlifted := Store.apart_congr (bare?_lifted w q.address) hw
    rcases w.relocate_cases q hcache with ⟨e, m, -, -, h⟩ | ⟨moved, m, hmove, -, h⟩
    · rw [h]
      exact Store.apart_congr (bare?_restore _ _ _ _) hlifted
    · rw [h]
      exact apart_resettle (w := { w.lifted q.address with machine := m })
        (shaped_congr hs (bare?_lifted w _)) hlifted (Machine.aligned_of_move hmove).2.1
        (live_lifted w _)

/-- **Making execute-only memory keeps records apart exactly unless it
intrudes.** -/
theorem apart_makeExecuteOnly_iff (hw : w.store.Apart) (s : Nat) (c : List UInt8) :
    (w.makeExecuteOnly s c).2.store.Apart ↔ ¬ w.Intrudes (.makeExecuteOnly s c) := by
  rcases w.makeExecuteOnly_cases s c with
    ⟨⟨f, hf⟩, hstore, -⟩ | ⟨a, x, m, -, -, -, -, -, -, hok, h⟩
  · rw [hstore]
    refine iff_of_true hw ?_
    rintro ⟨a, -, -, -, hok, -⟩
    rw [hf] at hok
    cases hok
  · rw [h.store]
    constructor
    · -- the new record and the old one both cover the page
      rintro hapart ⟨a', k, r, n, hok', hr, hn, hrange⟩
      obtain rfl : a = a' := Except.ok.inj (hok.symm.trans hok')
      have hview := bare?_enroll { w with machine := m }
        { Record.fresh a s .exec with executeOnly := some x }
      have hne := Store.ne_nextHandle hr
      have hnew : ({ Record.fresh a s .exec with executeOnly := some x } : Record).bare.Covers
          n := hrange
      refine hne (hapart k w.store.nextHandle r.bare _ n ?_ ?_ hn hnew)
      · rw [hview, Function.update_of_ne hne]
        exact Store.bare?_of_get? hr
      · rw [hview]
        exact Function.update_self _ _ _
    · intro hno
      refine apart_enroll (w := { w with machine := m }) hw fun k q n hq hn hrange => ?_
      obtain ⟨r, hr, rfl⟩ := Store.exists_get?_of_bare? hq
      exact hno ⟨a, k, r, n, hok, hr, hn, hrange⟩

/-- **One operation keeps records apart exactly unless it intrudes.** -/
theorem apart_perform_iff (hs : w.store.Shaped) (hw : w.store.Apart) (op : Operation) :
    (w.perform op).2.store.Apart ↔ ¬ w.Intrudes op := by
  have hsame : ∀ {v : Warden}, v.store = w.store → v.store.Apart := by
    intro v hv
    rw [hv]
    exact hw
  cases op with
  | create q =>
    refine iff_of_true ?_ not_false
    show (w.create q).2.store.Apart
    rcases w.create_cases q with ⟨-, h⟩ | ⟨a, m, hmap, -, h⟩
    · exact hsame h.store
    · rw [h.store]
      exact apart_settle (w := { w with machine := m }) hs hw (Machine.aligned_of_map hmap).1
  | remove a l =>
    refine iff_of_true ?_ not_false
    show (w.remove a l).2.store.Apart
    rcases w.remove_cases a l with ⟨-, h⟩ | ⟨m, hunmap, -, h⟩
    · exact hsame h.store
    · obtain ⟨ha, hlen⟩ := Machine.aligned_of_unmap hunmap
      rw [h]
      split
      · exact apart_vacate (w := { w with machine := m }) hs hw ha hlen
      · exact hw
  | reprotect a l ρ =>
    refine iff_of_true ?_ not_false
    show (w.reprotect a l ρ).2.store.Apart
    rcases w.reprotect_cases a l ρ with ⟨-, h⟩ | ⟨m, -, -, h⟩
    · exact hsame h.store
    · rw [h]
      exact apart_note (w := { w with machine := m }) hw
  | relocate q => exact iff_of_true (apart_relocate hs hw q) not_false
  | makeExecuteOnly s c => exact apart_makeExecuteOnly_iff hw s c
  | releaseExecuteOnly a l =>
    refine iff_of_true ?_ not_false
    show (w.releaseExecuteOnly a l).2.store.Apart
    rcases w.releaseExecuteOnly_cases a l with
      ⟨-, h⟩ | ⟨h, r, t, _, _, _, -, -, hremove, -, -, -, -, ht, -⟩
    · exact hsame h.store
    · rw [ht]
      refine Store.apart_update hw (Store.bare?_remove hremove) fun q k r n hq => ?_
      cases hq
  | teardown =>
    refine iff_of_true (fun h k q r n hq => ?_) not_false
    cases hq

/-- **Where records and memory are in step, no operation intrudes**: what
execute-only memory is given was free, so no record covers it. -/
theorem Consistent.not_intrudes (hc : w.Consistent) (op : Operation) : ¬ w.Intrudes op := by
  cases op with
  | makeExecuteOnly s c =>
    rintro ⟨a, k, r, n, hok, hr, hn, hrange⟩
    rcases w.makeExecuteOnly_cases s c with
      ⟨⟨f, hf⟩, -⟩ | ⟨a', x, m, -, -, -, -, hfree, -, hok', -⟩
    · rw [hf] at hok
      cases hok
    · obtain rfl : a = a' := Except.ok.inj (hok.symm.trans hok')
      have hmapped := hc.inStep.mapped (p := .body) hr hn not_false
      rw [hfree n hrange] at hmapped
      cases hmapped
  | create | remove | reprotect | relocate | releaseExecuteOnly | teardown => exact id

/-- Without the mapping cache there is no execute-only memory. -/
theorem not_intrudes_of_not_cache (hcache : w.config.useMappingCache = false) (op : Operation) :
    ¬ w.Intrudes op := by
  cases op with
  | makeExecuteOnly s c =>
    rintro ⟨a, -, -, -, hok, -⟩
    rcases w.makeExecuteOnly_cases s c with ⟨⟨f, hf⟩, -⟩ | ⟨-, -, -, hon, -⟩
    · rw [hf] at hok
      cases hok
    · rw [hcache] at hon
      cases hon
  | create | remove | reprotect | relocate | releaseExecuteOnly | teardown => exact id

/-- **When records overlap.** Over every run that begins without records,
in every configuration and under every fault: the ranges of distinct
records are disjoint after each step exactly when no execute-only memory
is given pages that a record covers; and it never is in a run whose moves
strand no pages. -/
theorem disjoint_throughout_iff (hempty : w.store = .empty) (ops : List Operation) :
    (w.Throughout (fun v => v.store.Disjoint) ops ↔ w.Avoids Intrudes ops) ∧
      (w.Avoids Strands ops → w.Throughout (fun v => v.store.Disjoint) ops) := by
  have hstart : w.store.Apart := by
    intro h k q r n hq
    rw [hempty] at hq
    cases hq
  have happart : w.Throughout (fun v => v.store.Apart) ops ↔ w.Avoids Intrudes ops :=
    throughout_iff_avoids (I := fun v => v.store.Shaped) (fun v op => (shaped_perform · op))
      (fun v op hs hv => apart_perform_iff hs hv op) (shaped_of_empty hempty) hstart ops
  have hiff : w.Throughout (fun v => v.store.Disjoint) ops ↔ w.Avoids Intrudes ops := by
    rw [← happart]
    refine forall₂_congr fun done _ => Store.disjoint_iff_apart ?_
    exact shaped_run (shaped_of_empty hempty) done
  refine ⟨hiff, fun hno => hiff.2 fun done op hdone => ?_⟩
  cases hcache : w.config.useMappingCache with
  | true => exact ((consistent_of_avoids hempty hcache hno).before hdone).not_intrudes op
  | false =>
    refine not_intrudes_of_not_cache ?_ op
    rw [config_run]
    exact hcache

/-- A move that takes two mappings along in the record of one, after which
execute-only memory is given the place of the other; and a move of one
whole mapping, which strands nothing. -/
theorem overlap_after_stranding_move :
    ¬ (Warden.start { useMappingCache := true }).Throughout (fun v => v.store.Disjoint)
      [.create ⟨0, 4096, .readWrite, .privateAnonymous, -1, 0⟩,
        .create ⟨0, 4096, .readWrite, .privateAnonymous, -1, 0⟩,
        .relocate ⟨0x7effffffe000, 8192, 8192, ⟨3⟩, 0x1000000000⟩,
        .makeExecuteOnly 8192 [0xc3]] ∧
    (Warden.start { useMappingCache := true }).Throughout (fun v => v.store.Disjoint)
      [.create ⟨0, 4096, .readWrite, .privateAnonymous, -1, 0⟩,
        .relocate ⟨0x7efffffff000, 4096, 4096, ⟨3⟩, 0x1000000000⟩,
        .makeExecuteOnly 4096 [0xc3]] := by
  constructor
  · rw [(disjoint_throughout_iff rfl _).1]
    intro havoids
    refine havoids
      [.create ⟨0, 4096, .readWrite, .privateAnonymous, -1, 0⟩,
        .create ⟨0, 4096, .readWrite, .privateAnonymous, -1, 0⟩,
        .relocate ⟨0x7effffffe000, 8192, 8192, ⟨3⟩, 0x1000000000⟩]
      (.makeExecuteOnly 8192 [0xc3]) (List.prefix_refl _) ?_
    exact ⟨0x7effffffe000, ⟨0, 0⟩, .fresh 0x7efffffff000 4096 .readWrite, pageOf 0x7efffffff000,
      rfl, rfl, by decide, by decide⟩
  · refine (disjoint_throughout_iff rfl _).2 ?_
    refine avoids_cons.2 ⟨id, avoids_cons.2 ⟨?_, avoids_cons.2 ⟨id, avoids_nil⟩⟩⟩
    rintro ⟨k, r, -, -, hk, hr, -⟩
    have hmem := Store.mem_entries_iff.2 hr
    obtain ⟨rfl, -⟩ := Prod.mk.inj (List.mem_singleton.1 hmem)
    exact hk rfl

end Warden

end PageWarden
