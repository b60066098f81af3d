import PageWarden.Proofs.Chart
import PageWarden.Proofs.Guard.Reversal
import PageWarden.Proofs.Tag
/-!
# All or nothing — execute-only memory is made whole, or not at all

Making execute-only memory maps pages, copies the code, allocates a key,
tags the pages with it or takes their rights away without one, asks what
the key isolates with, and places guards. Any of these steps can fail,
and some failures only mean that there is no key to be had.

What the steps before a failure acquired is given back (`LeftAlone`):
pages, keys and records are what they were, though the number of the key
that came and went is used up. Otherwise all of it is there (`Enclosed`).
There is no third way to end (`makeExecuteOnly_all_or_nothing`), provided
that unmapping does not fail and that keys are numbered afresh, which is
so on every machine that came about by calls (`Machine.Issued`).
-/

namespace PageWarden

/-- The bytes of page `n` of memory that begins with `code` at `a` and goes
on with zeros. -/
def codeBytes (a : Nat) (code : List UInt8) (n : Nat) : Fin pageSize → UInt8 :=
  fun i => code[n * pageSize + i - a]?.getD 0

namespace Warden

/-- **Nothing is left of an attempt**: the records are what they were, and
so is the space but for the number of the next key. -/
structure LeftAlone (w v : Warden) : Prop where
  store : v.store = w.store
  space : v.machine.space = { w.machine.space with nextKey := v.machine.space.nextKey }

/-- **All of the execute-only memory is there**: `size` bytes at `a` that
begin with `code`, under the record `r`, which is the one at `h`, and
isolated by `key`. -/
structure Enclosed (w v : Warden) (a size : Nat) (code : List UInt8) (key : Option Nat)
    (h : Handle) (r : Record) : Prop where
  aligned : Aligned a
  /-- The pages were free, -/
  free : ∀ n, PageIn a (a + roundUp size pageSize) n → w.machine.pageAt n = none
  /-- and can be executed, carry the key and hold the code. -/
  pages : ∀ n, PageIn a (a + roundUp size pageSize) n →
    v.machine.pageAt n = some ⟨.exec, key, codeBytes a code n⟩
  /-- The key is a new one, and the only one that is new. -/
  fresh : ∀ k ∈ key, ¬ w.machine.space.Allocated k
  keys : v.machine.space.keys =
    w.machine.space.keys ++ key.toList.map fun k => (k, .disableAccess)
  /-- The record is a new one, and the only one that is new. -/
  vacant : w.store.get? h = none
  entered : v.store.get? = Function.update w.store.get? h (some r)
  record : r.bare = { Record.fresh a size .exec with executeOnly := some ⟨key, .disableAccess⟩ }
  /-- Its guards took free pages on its flanks, -/
  flanked : r.Flanked
  guards : ∀ g ∈ r.guards, w.machine.pageAt (pageOf g) = none
  /-- and no other page changed. -/
  elsewhere : ∀ n, ¬ PageIn a (a + roundUp size pageSize) n →
    v.machine.pageAt n =
      if n * pageSize ∈ r.guards then some (.fresh .noAccess) else w.machine.pageAt n

/-! ## Reserving -/

variable {w v : Warden} {size a : Nat} {code : List UInt8} {f : Failure}

/-- Where no memory is reserved, nothing is left of the attempt. -/
theorem leftAlone_of_reserve_error {length : Nat} (h : w.reserve size length = (.error f, v)) :
    LeftAlone w v := by
  unfold reserve at h
  split at h
  · cases h
    exact ⟨rfl, rfl⟩
  · split at h
    · cases h
      exact ⟨rfl, rfl⟩
    · split at h
      · cases h
        exact ⟨rfl, rfl⟩
      · split at h
        · rename_i errno m hmap
          cases h
          have hspace := Machine.space_of_map_error hmap
          exact ⟨rfl, by rw [hspace]⟩
        · cases h

/-- Where memory is reserved, the code fits and the machine mapped it. -/
theorem of_reserve_ok {length : Nat} (h : w.reserve size length = (.ok a, v)) :
    length ≤ size ∧ ∃ m, w.machine.map (.ofLength size .readWrite) = (.ok a, m) ∧
      v = { w with machine := m } := by
  unfold reserve at h
  split at h
  · cases h
  · split at h
    · cases h
    · split at h
      · cases h
      · rename_i hfits
        split at h
        · cases h
        · rename_i got m hmap
          cases h
          exact ⟨Nat.le_of_not_lt hfits, m, hmap, rfl⟩

section Written

variable {m₀ m : Machine} (hmap : m₀.map (.ofLength size .readWrite) = (.ok a, m))
variable (hfits : code.length ≤ size)

include hmap hfits

/-- The code is copied to pages that are mapped. -/
theorem isSome_pageAt_of_touched {n : Nat}
    (hn : PageTable.InRange (pageOf a) (Space.touched a code.length) n) :
    (m.pageAt n).isSome = true := by
  have hin : PageIn a (a + roundUp size pageSize) n :=
    Space.pageIn_of_inRange_touched (Machine.aligned_of_map hmap).1 hfits hn
  rw [Machine.pageAt_map hmap]
  exact (congrArg Option.isSome (if_pos hin)).trans rfl

/-- **The reserved memory holds the code and zeros**, and no other page
changed. -/
theorem pageAt_written (n : Nat) :
    (m.copy a code).pageAt n =
      if PageIn a (a + roundUp size pageSize) n then some ⟨.readWrite, none, codeBytes a code n⟩
      else m₀.pageAt n := by
  have ha := (Machine.aligned_of_map hmap).1
  have hcopy : (m.copy a code).space =
      m.space.write a code.length fun i => code[i]?.getD 0 := rfl
  have hmapped : ∀ k, PageTable.InRange (pageOf a) (Space.touched a code.length) k →
      (m.pageAt k).isSome = true := fun k => isSome_pageAt_of_touched hmap hfits
  split
  · rename_i hn
    have hbytes : (fun i : Fin pageSize =>
        if a ≤ n * pageSize + i ∧ n * pageSize + i < a + code.length then
          code[n * pageSize + i - a]?.getD 0
        else (0 : UInt8)) = codeBytes a code n := by
      funext i
      unfold codeBytes
      split
      · rfl
      · -- past the code there are zeros
        rename_i hout
        rw [List.getElem?_eq_none]
        · rfl
        · have hstart := hn.1
          omega
    have hpage : m.pageAt n = some (.fresh .readWrite) :=
      (Machine.pageAt_map hmap n).trans (if_pos hn)
    rw [Machine.pageAt_write hcopy hmapped, hpage]
    simp only [Option.map_some, Page.fresh]
    rw [hbytes]
  · rename_i hn
    rw [Machine.pageAt_write_of_not_pageIn hcopy hmapped ha hfits hn, Machine.pageAt_map hmap]
    exact if_neg hn

/-- Copying the code does not stop the program. -/
theorem unpaged_written : (m.copy a code).space.unpaged = m₀.space.unpaged := by
  have hrest := Machine.unpaged_map m₀ (.ofLength size .readWrite)
  have hcopy : (m.copy a code).space =
      m.space.write a code.length fun i => code[i]?.getD 0 := rfl
  rw [hmap] at hrest
  rw [Machine.unpaged_write hcopy fun k => isSome_pageAt_of_touched hmap hfits, hrest]

end Written

/-! ## Sealing -/

section Sealing

variable {m m' : Machine}

/-- A key that is given back after it was allocated anew leaves the others. -/
theorem filter_keys_of_new {s : Space} {κ : Nat} (hnew : ¬ s.Allocated κ) (ρ : KeyRights) :
    ((s.keys ++ [(κ, ρ)]).filter fun k => k.1 ≠ κ) = s.keys := by
  rw [List.filter_append, List.filter_eq_self.2]
  · simp
  · intro k hk
    rw [decide_eq_true_eq]
    rintro rfl
    exact hnew ⟨k.2, hk⟩

/-- **Sealing that fails leaves the space alone**, but for the number of
the next key. -/
theorem space_of_sealPages_error (h : sealPages m a size = (.error f, m'))
    (hnew : ¬ m.space.Allocated m.space.nextKey) :
    ∃ next, m'.space = { m.space with nextKey := next } := by
  unfold sealPages at h
  rcases m.keyAlloc_cases .disableAccess with
    ⟨errno, m₁, halloc, hs, -⟩ | ⟨m₁, halloc, hcalls, hplatform, hs⟩ <;>
    simp only [halloc] at h
  · split at h
    · split at h
      · cases h
      · rename_i hprotect
        cases h
        exact ⟨m.space.nextKey, by rw [Machine.space_of_protect_error hprotect, hs]⟩
    · cases h
      exact ⟨m.space.nextKey, by rw [hs]⟩
  · split at h
    · cases h
    · rename_i errno m₂ htag
      cases h
      -- the machine that allocated the key gives it back
      have hknown : m₂.platform.hasKeyCalls = true := by
        have htagged := (Machine.Calls.refl (m := m₁)).keyProtect a size .exec m.space.nextKey
        rw [htag] at htagged
        rw [htagged.platform, hplatform, hcalls]
      refine ⟨m.space.nextKey + 1, ?_⟩
      unfold Machine.keyFree
      rw [if_pos hknown]
      simp only [Space.keyFree, Machine.space_of_keyProtect_error htag, hs]
      rw [filter_keys_of_new hnew]

/-- **Sealing that succeeds** takes every right but executing from its
range, and tags it with a key that is the next one, if there is a key. -/
theorem sealPages_spec {key : Option Nat} (h : sealPages m a size = (.ok key, m'))
    (hlen : 0 < size) :
    (∀ n, m'.pageAt n =
        if PageIn a (a + roundUp size pageSize) n then
          (m.pageAt n).map fun p => { p with rights := .exec, key := key.or p.key }
        else m.pageAt n) ∧
      (∀ k ∈ key, k = m.space.nextKey) ∧
      m'.space.keys = m.space.keys ++ key.toList.map fun k => (k, .disableAccess) := by
  unfold sealPages at h
  have halloc : ∀ n, (m.keyAlloc .disableAccess).2.pageAt n = m.pageAt n :=
    congrFun (Machine.pageAt_keyAlloc m .disableAccess)
  rcases m.keyAlloc_cases .disableAccess with
    ⟨errno, m₁, hkey, hs, -⟩ | ⟨m₁, hkey, -, -, hs⟩ <;>
    simp only [hkey] at h halloc
  · split at h
    · split at h
      · rename_i m₂ hprotect
        cases h
        have hrest := Machine.unpaged_protect m₁ a size .exec
        rw [hprotect] at hrest
        refine ⟨fun n => ?_, nofun, ?_⟩
        · rw [(Machine.pageAt_protect hprotect n).2, halloc]
          rfl
        · rw [Option.toList_none, List.map_nil, List.append_nil, ← hs]
          exact Space.keys_of_unpaged hrest
      · cases h
    · cases h
  · split at h
    · rename_i m₂ htag
      cases h
      have hrest := Machine.unpaged_keyProtect m₁ a size .exec m.space.nextKey
      rw [htag] at hrest
      refine ⟨fun n => ?_, fun k hk => (Option.some.inj hk).symm, ?_⟩
      · rw [(Machine.pageAt_keyProtect htag hlen n).2, halloc]
        rfl
      · rw [Space.keys_of_unpaged hrest, hs]
        rfl
    · cases h

/-- Asking what a key isolates with changes nothing. -/
theorem space_isolation (m : Machine) (key : Option Nat) :
    (isolation m key).2.space = m.space := by
  unfold isolation
  split
  · rfl
  · show (m.keyRights _).2.space = m.space
    unfold Machine.keyRights
    split <;> rfl

/-- **A key that was just allocated disables access**, and so does none. -/
theorem isolation_fst {s : Space} {key : Option Nat} (hnew : ∀ k ∈ key, ¬ s.Allocated k)
    (hkeys : m.space.keys = s.keys ++ key.toList.map fun k => (k, .disableAccess)) :
    (isolation m key).1 = .disableAccess := by
  cases key with
  | none => rfl
  | some k =>
    have hnone : s.keys.lookup k = none := by
      rw [List.lookup_eq_none_iff]
      intro e he
      rw [bne_iff_ne]
      rintro rfl
      exact hnew _ rfl ⟨e.2, he⟩
    have hlookup : m.space.keyRights k = some .disableAccess := by
      unfold Space.keyRights
      rw [hkeys, List.lookup_append, hnone]
      simp
    show (m.keyRights k).1.getD .disableAccess = .disableAccess
    unfold Machine.keyRights
    split
    · show (m.space.keyRights k).getD .disableAccess = .disableAccess
      rw [hlookup]
      rfl
    · rfl

end Sealing

/-! ## Enclosing -/

/-- **A record enters with the guards it gets**, which take free pages on
its flanks and show in no other page. -/
theorem enroll_shows {r : Record} (hm : w.machine.faults .unmap = []) (hs : r.Shaped)
    (hbare : r.bare = r) :
    ∃ s : Record, s.bare = r ∧ s.Flanked ∧ (w.enroll r).store = (w.store.insert s).2 ∧
      (∀ g ∈ s.guards, w.machine.pageAt (pageOf g) = none) ∧
      (∀ n, (w.enroll r).machine.pageAt n =
        if n * pageSize ∈ s.guards then some (.fresh .noAccess) else w.machine.pageAt n) ∧
      (w.enroll r).machine.space.unpaged = w.machine.space.unpaged := by
  unfold enroll
  simp only
  split
  · obtain ⟨hpage, hfree⟩ := Guard.placeAll_shows hm hbare
    exact ⟨_, (Guard.bare_placeAll _ _).trans hbare, Guard.flanked_placeAll hs hbare _, rfl,
      hfree, hpage, Guard.unpaged_placeAll _ _⟩
  · have hnone : r.guards = [] := by
      rw [← hbare]
      rfl
    refine ⟨r, hbare, Record.flanked_of_bare hbare, rfl, ?_, fun n => ?_, rfl⟩
    · rw [hnone]
      exact fun g hg => absurd hg List.not_mem_nil
    · rw [hnone, if_neg List.not_mem_nil]

section Enclosing

variable {b : Nat} {m : Machine} (hunmaps : w.machine.faults .unmap = [])
variable (hnew : ¬ w.machine.space.Allocated w.machine.space.nextKey)
variable (hmap : w.machine.map (.ofLength size .readWrite) = (.ok a, m))
variable (hfits : code.length ≤ size)

include hunmaps hnew hmap hfits

/-- **What cannot be sealed is taken back.** -/
theorem leftAlone_of_enclose_error
    (h : enclose { w with machine := m } a size code = (.error f, v)) : LeftAlone w v := by
  obtain ⟨ha, hlen⟩ := Machine.aligned_of_map hmap
  unfold enclose at h
  rcases hseal : sealPages (m.copy a code) a size with ⟨f' | key, m'⟩ <;> simp only [hseal] at h
  · cases h
    have hrest := unpaged_written hmap hfits
    obtain ⟨next, hspace⟩ : ∃ next, m'.space = { (m.copy a code).space with nextKey := next } := by
      refine space_of_sealPages_error hseal ?_
      unfold Space.Allocated
      rw [Space.keys_of_unpaged hrest, Space.nextKey_of_unpaged hrest]
      exact hnew
    have hpage : m'.pageAt = (m.copy a code).pageAt := by
      funext n
      rw [Machine.pageAt, hspace, Machine.pageAt]
    -- the range is unmapped again, and it was free
    have hm' : m'.faults .unmap = [] :=
      (((Machine.calls_of_map hmap).copy a code).trans (calls_sealPages hseal)).unscheduled hunmaps
    have hunmapped : m'.unmap a size = (.ok (), (m'.unmap a size).2) :=
      Prod.ext (Machine.unmap_of_aligned hm' ha hlen) rfl
    have hunpaged := Machine.unpaged_unmap m' a size
    refine ⟨rfl, Space.eq_of_unpaged ?_ fun n => ?_⟩
    · show (m'.unmap a size).2.space.unpaged =
        { w.machine.space.unpaged with nextKey := (m'.unmap a size).2.space.nextKey }
      rw [Space.nextKey_of_unpaged hunpaged, hunpaged, hspace, ← hrest]
      rfl
    · show (m'.unmap a size).2.pageAt n = w.machine.pageAt n
      rw [Machine.pageAt_unmap hunmapped, hpage, pageAt_written hmap hfits]
      split
      · rename_i hn
        exact (Machine.rightsAt_eq_none_iff.1 (rightsAt_of_reserved hmap hn)).symm
      · rfl
  · cases h

/-- **What can be sealed is entered**, with its key and its guards. -/
theorem enclosed_of_enclose_ok
    (h : enclose { w with machine := m } a size code = (.ok b, v)) :
    b = a ∧ ∃ key h r, Enclosed w v a size code key h r := by
  obtain ⟨ha, hlen⟩ := Machine.aligned_of_map hmap
  unfold enclose at h
  rcases hseal : sealPages (m.copy a code) a size with ⟨f' | key, m'⟩ <;> simp only [hseal] at h
  · cases h
  · have hrest := unpaged_written hmap hfits
    obtain ⟨hsealed, hkey, hkeys⟩ := sealPages_spec hseal hlen
    rw [Space.keys_of_unpaged hrest] at hkeys
    rw [Space.nextKey_of_unpaged hrest] at hkey
    have hfresh : ∀ k ∈ key, ¬ w.machine.space.Allocated k := by
      intro k hk
      rw [hkey k hk]
      exact hnew
    have hrights := isolation_fst hfresh hkeys
    have hspace := space_isolation m' key
    have hm' : (isolation m' key).2.faults .unmap = [] :=
      (((Machine.calls_of_map hmap).copy a code).trans ((calls_sealPages hseal).trans
        (path_isolation m' key).calls)).unscheduled hunmaps
    generalize isolation m' key = isolated at h hrights hspace hm'
    -- the pages once they are sealed
    have hpages : ∀ n, isolated.2.pageAt n =
        if PageIn a (a + roundUp size pageSize) n then some ⟨.exec, key, codeBytes a code n⟩
        else w.machine.pageAt n := by
      intro n
      rw [Machine.pageAt_of_space hspace, hsealed, pageAt_written hmap hfits]
      split
      · simp only [Option.map_some, Option.or_none]
      · rfl
    have hs : Record.Shaped { Record.fresh a size .exec with
      executeOnly := some ⟨key, isolated.1⟩ } := ⟨ha, hlen⟩
    obtain ⟨r, hbare, hflanked, hstore, hfree, hplaced, hunpaged⟩ :=
      enroll_shows (w := { w with machine := isolated.2 }) hm' hs rfl
    have hv : v.store = (w.store.insert r).2 ∧ v.machine.space = (enroll
        { w with machine := isolated.2 } { Record.fresh a size .exec with
          executeOnly := some ⟨key, isolated.1⟩ }).machine.space := by
      rw [← hstore]
      cases h
      exact ⟨rfl, rfl⟩
    have hpage : ∀ n, v.machine.pageAt n =
        if n * pageSize ∈ r.guards then some (.fresh .noAccess) else isolated.2.pageAt n := by
      intro n
      rw [Machine.pageAt_of_space hv.2]
      exact hplaced n
    -- the sealed pages are mapped, so no guard is among them
    have hout : ∀ {n}, n * pageSize ∈ r.guards → ¬ PageIn a (a + roundUp size pageSize) n := by
      intro n hn hin
      have hnone : isolated.2.pageAt (pageOf (n * pageSize)) = none := hfree _ hn
      rw [pageOf_start, hpages, if_pos hin] at hnone
      cases hnone
    refine ⟨by cases h; rfl, key, w.store.nextHandle, r, ha, fun n hn => ?_, fun n hn => ?_,
      hfresh, ?_, ?_, ?_, ?_, hflanked, fun g hg => ?_, fun n hn => ?_⟩
    · exact Machine.rightsAt_eq_none_iff.1 (rightsAt_of_reserved hmap hn)
    · rw [hpage, if_neg fun hg => hout hg hn, hpages, if_pos hn]
    · rw [hv.2, Space.keys_of_unpaged hunpaged, hspace, hkeys]
    · exact Store.get?_nextHandle w.store
    · rw [hv.1, Store.get?_insert_eq_update]
    · rw [hbare, hrights]
    · have hnone : isolated.2.pageAt (pageOf g) = none := hfree g hg
      rw [hpages] at hnone
      split at hnone
      · cases hnone
      · exact hnone
    · rw [hpage, hpages, if_neg hn]

end Enclosing

/-! ## The request -/

/-- **Execute-only memory is made whole, or not at all.** Whatever faults
are scheduled, unless it is for unmapping, and whether there are keys or
not: if the request fails, pages, keys in use and records are what they
were; if it answers an address, the memory there is new, can be executed
and nothing else, holds the code and zeros, and has a record of its own,
and it is isolated by a key of its own or by none. -/
theorem makeExecuteOnly_all_or_nothing (hunmaps : w.machine.faults .unmap = [])
    (hnew : ¬ w.machine.space.Allocated w.machine.space.nextKey) (size : Nat)
    (code : List UInt8) :
    (∀ f, (w.makeExecuteOnly size code).1 = .error f →
        LeftAlone w (w.makeExecuteOnly size code).2) ∧
      ∀ a, (w.makeExecuteOnly size code).1 = .ok a →
        ∃ key h r, Enclosed w (w.makeExecuteOnly size code).2 a size code key h r := by
  unfold makeExecuteOnly
  rcases hreserve : w.reserve size code.length with ⟨f | a, v⟩
  · exact ⟨fun g hg => leftAlone_of_reserve_error hreserve, nofun⟩
  · obtain ⟨hfits, m, hmap, rfl⟩ := of_reserve_ok hreserve
    simp only
    rcases henclose : enclose { w with machine := m } a size code with ⟨f | b, v⟩
    · exact ⟨fun g hg => leftAlone_of_enclose_error hunmaps hnew hmap hfits henclose, nofun⟩
    · obtain ⟨rfl, hthere⟩ := enclosed_of_enclose_ok hunmaps hnew hmap hfits henclose
      refine ⟨nofun, fun c hc => ?_⟩
      cases hc
      exact hthere

/-- Neighbours on a machine whose next call of `p` fails with `e`. -/
def failing (p : Primitive) (e : Errno) : Warden :=
  { neighbours with
    machine := { neighbours.machine with faults := Faults.never.set p [some e] } }

/-- A key that cannot be used to tag the pages is given back and the pages
are unmapped; one that cannot be had is done without. -/
theorem all_or_nothing_of_failing :
    let untagged := (failing .keyProtect Errno.nomem).makeExecuteOnly 9000 [0xc3]
    let keyless := (failing .keyAlloc Errno.nospc).makeExecuteOnly 9000 [0xc3]
    (untagged.1 = .error (.keyProtectFailed Errno.nomem) ∧
        LeftAlone (failing .keyProtect Errno.nomem) untagged.2) ∧
      keyless.1 = .ok 0x7effffff2000 ∧
        ∃ key h r, Enclosed (failing .keyAlloc Errno.nospc) keyless.2 0x7effffff2000 9000 [0xc3]
          key h r := by
  have hkeys : neighbours.machine.space.keys = [(1, .disableAccess)] := rfl
  have hnext : neighbours.machine.space.nextKey = 2 := rfl
  have hnew : ¬ neighbours.machine.space.Allocated neighbours.machine.space.nextKey := by
    rintro ⟨ρ, hρ⟩
    rw [hkeys, hnext, List.mem_singleton] at hρ
    cases hρ
  have huntagged := makeExecuteOnly_all_or_nothing (w := failing .keyProtect Errno.nomem) rfl hnew
    9000 [0xc3]
  have hkeyless := makeExecuteOnly_all_or_nothing (w := failing .keyAlloc Errno.nospc) rfl hnew
    9000 [0xc3]
  have hrefused : ((failing .keyProtect Errno.nomem).makeExecuteOnly 9000 [0xc3]).1 =
      .error (.keyProtectFailed Errno.nomem) := rfl
  have hmade : ((failing .keyAlloc Errno.nospc).makeExecuteOnly 9000 [0xc3]).1 =
      .ok 0x7effffff2000 := rfl
  exact ⟨⟨hrefused, huntagged.1 _ hrefused⟩, hmade, hkeyless.2 _ hmade⟩

end Warden

end PageWarden
