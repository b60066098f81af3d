import PageWarden.Proofs.Memory.Key
import PageWarden.Proofs.Request
/-!
# Execute-only memory — how its requests can end

Sealing gives a fresh mapping the right to execute and no other, with a
key or without one, and touches no other page (`rightsAt_sealPages`).
From there the two requests are like the rest: they fail and leave memory
and records alone, or a record enters (`Warden.enroll`, which tracked
mappings share) or leaves the store.
-/

namespace PageWarden

namespace Warden

/-! ## Sealing -/

section Sealing

variable {m m' : Machine} {address size n : Nat}

/-- **Sealing fails and changes no rights, or its range can be executed**, and
nothing else be done with it. -/
theorem rightsAt_sealPages_cases {o : Except Failure (Option Nat)}
    (h : sealPages m address size = (o, m')) (hlen : 0 < size) :
    ((∃ f, o = .error f) ∧ m'.rightsAt = m.rightsAt) ∨
      (∃ key, o = .ok key) ∧ ∀ n, m'.rightsAt n =
        if PageIn address (address + roundUp size pageSize) n then some .exec
        else m.rightsAt n := by
  unfold sealPages at h
  split at h
  · rename_i key m₁ halloc
    have hm₁ : m₁.rightsAt = m.rightsAt := by
      rw [← Machine.rightsAt_keyAlloc m .disableAccess, halloc]
    split at h
    · rename_i m₂ htag
      cases h
      refine Or.inr ⟨⟨_, rfl⟩, fun n => ?_⟩
      rw [Machine.rightsAt_keyProtect htag hlen, hm₁]
    · rename_i errno m₂ htag
      cases h
      refine Or.inl ⟨⟨_, rfl⟩, ?_⟩
      rw [Machine.rightsAt_keyFree, ← hm₁]
      exact funext fun n => Machine.rightsAt_congr
        (congrFun (Machine.pageAt_of_space (Machine.space_of_keyProtect_error htag)) n)
  · rename_i errno m₁ halloc
    have hm₁ : m₁.rightsAt = m.rightsAt := by
      rw [← Machine.rightsAt_keyAlloc m .disableAccess, halloc]
    split at h
    · split at h
      · rename_i m₂ hprotect
        cases h
        refine Or.inr ⟨⟨_, rfl⟩, fun n => ?_⟩
        rw [Machine.rightsAt_protect hprotect, hm₁]
      · rename_i errno m₂ hprotect
        cases h
        refine Or.inl ⟨⟨_, rfl⟩, ?_⟩
        rw [← hm₁]
        exact funext fun n => Machine.rightsAt_congr
          (congrFun (Machine.pageAt_of_space (Machine.space_of_protect_error hprotect)) n)
    · cases h
      exact Or.inl ⟨⟨_, rfl⟩, hm₁⟩

/-- Sealing touches no page outside of its range. -/
theorem rightsAt_sealPages {o : Except Failure (Option Nat)}
    (h : sealPages m address size = (o, m')) (hlen : 0 < size)
    (hn : ¬ PageIn address (address + roundUp size pageSize) n) :
    m'.rightsAt n = m.rightsAt n := by
  rcases rightsAt_sealPages_cases h hlen with ⟨-, hsame⟩ | ⟨-, hsealed⟩
  · rw [hsame]
  · rw [hsealed, if_neg hn]

/-- **What is sealed can be executed, and nothing else.** -/
theorem rightsAt_of_sealed {key : Option Nat} (h : sealPages m address size = (.ok key, m'))
    (hlen : 0 < size) (hn : PageIn address (address + roundUp size pageSize) n) :
    m'.rightsAt n = some .exec := by
  rcases rightsAt_sealPages_cases h hlen with ⟨⟨f, hf⟩, -⟩ | ⟨-, hsealed⟩
  · cases hf
  · rw [hsealed, if_pos hn]

/-- **What is sealed carries the key**, if there is one. -/
theorem keyAt_sealPages {key : Option Nat} (h : sealPages m address size = (.ok key, m'))
    (hlen : 0 < size) (hfresh : ∀ n, PageIn address (address + roundUp size pageSize) n →
      m.keyAt n = none) (n : Nat) :
    m'.keyAt n =
      if PageIn address (address + roundUp size pageSize) n then key else m.keyAt n := by
  have halloc : ∀ {o : Except Errno Nat} {v : Machine}, m.keyAlloc .disableAccess = (o, v) →
      v.keyAt n = m.keyAt n := by
    intro o v hv
    have hpage := congrFun (Machine.pageAt_keyAlloc m .disableAccess) n
    rw [hv] at hpage
    exact Machine.keyAt_congr hpage
  unfold sealPages at h
  split at h
  · rename_i κ m₁ hkey
    split at h
    · rename_i m₂ htag
      cases h
      rw [Machine.keyAt_keyProtect htag hlen, halloc hkey]
    · cases h
  · rename_i errno m₁ hkey
    split at h
    · split at h
      · rename_i m₂ hprotect
        cases h
        rw [Machine.keyAt_protect hprotect, halloc hkey]
        split
        · rename_i hn
          exact hfresh n hn
        · rfl
      · cases h
    · cases h

/-- The key is the next one. -/
theorem key_of_sealPages {κ : Nat} (h : sealPages m address size = (.ok (some κ), m')) :
    κ = m.space.nextKey := by
  unfold sealPages at h
  rcases m.keyAlloc_cases .disableAccess with ⟨errno, m₁, halloc, -⟩ | ⟨m₁, halloc, -⟩ <;>
    simp only [halloc] at h
  · split at h
    · split at h <;> cases h
    · cases h
  · split at h <;> cases h
    rfl

/-- **Sealing is idle**, but that a key with which no page could be tagged
is given back. -/
theorem path_sealPages {o : Except Failure (Option Nat)} (h : sealPages m address size = (o, m')) :
    m.Path Act.Idle m' ∨
      (∃ f, o = .error f) ∧ ∃ m₁ κ, m.Path Act.Idle m₁ ∧ m' = m₁.keyFree κ := by
  have hidle : ∀ {v v' : Machine} (c : Act), c.Idle v → v.act c = v' → v.Path Act.Idle v' :=
    fun c hc heq => Machine.Path.refl.step hc heq
  unfold sealPages at h
  split at h
  · rename_i key m₁ halloc
    have hpath := hidle (.keyAlloc .disableAccess) trivial (congrArg Prod.snd halloc)
    split at h
    · rename_i m₂ htag
      cases h
      exact Or.inl (hpath.step (c := .keyProtect _ _ _ _) trivial (congrArg Prod.snd htag))
    · rename_i errno m₂ htag
      cases h
      refine Or.inr ⟨⟨_, rfl⟩, m₂, key, ?_, rfl⟩
      exact hpath.step (c := .keyProtect _ _ _ _) trivial (congrArg Prod.snd htag)
  · rename_i errno m₁ halloc
    have hpath := hidle (.keyAlloc .disableAccess) trivial (congrArg Prod.snd halloc)
    split at h
    · split at h <;> rename_i m₂ hprotect <;> cases h <;>
        exact Or.inl (hpath.trans (Machine.idle_protect hprotect))
    · cases h
      exact Or.inl hpath

/-- **What is mapped can be sealed**, where nothing is scheduled to fail. -/
theorem sealPages_of_mapped (hm : m.faults = .never) (ha : Aligned address)
    (hmapped : ∀ n, PageIn address (address + roundUp size pageSize) n →
      (m.rightsAt n).isSome) : ∃ key m', sealPages m address size = (.ok key, m') := by
  unfold sealPages
  have hcalls := (Machine.Calls.refl (m := m)).keyAlloc .disableAccess
  rcases m.keyAlloc_cases .disableAccess with
    ⟨errno, m₁, halloc, -, hkeyless⟩ | ⟨m₁, halloc, hkeys, hplatform, -⟩ <;>
    rw [halloc] at hcalls <;>
    have hm₁ : m₁.rightsAt = m.rightsAt := by
      rw [← Machine.rightsAt_keyAlloc m .disableAccess, halloc]
  · have hnone : keyless errno = true := by
      rcases hkeyless hm with rfl | rfl <;> decide
    obtain ⟨m', hprotect⟩ := Machine.protect_of_mapped (hcalls.faults hm) ha
      (fun n hn => by rw [hm₁]; exact hmapped n hn) .exec
    exact ⟨none, m', by rw [halloc]; simp only [hnone, hprotect, if_true]⟩
  · obtain ⟨m', htag⟩ := Machine.keyProtect_of_mapped (hcalls.faults hm) (hplatform ▸ hkeys)
      (Machine.keyRights_of_keyAlloc halloc) ha (fun n hn => by rw [hm₁]; exact hmapped n hn) .exec
    exact ⟨some m.space.nextKey, m', by rw [halloc]; simp only [htag]⟩

/-- Sealing is a stretch of calls. -/
theorem calls_sealPages {o : Except Failure (Option Nat)}
    (h : sealPages m address size = (o, m')) : m.Calls m' := by
  rcases path_sealPages h with hidle | ⟨-, m₁, κ, hidle, rfl⟩
  · exact hidle.calls
  · exact hidle.calls.keyFree κ

/-- Asking what a key isolates with is idle. -/
theorem path_isolation (m : Machine) (key : Option Nat) :
    m.Path Act.Idle (isolation m key).2 := by
  unfold isolation
  split
  · exact .refl
  · exact Machine.Path.refl.act (.keyRights _) trivial

/-- Asking changes nothing of the view of memory. -/
theorem rightsAt_isolation (m : Machine) (key : Option Nat) :
    (isolation m key).2.rightsAt = m.rightsAt := by
  unfold isolation
  split
  · rfl
  · exact Machine.rightsAt_keyRights _ _

/-- Nor any tag. -/
theorem keyAt_isolation (m : Machine) (key : Option Nat) :
    (isolation m key).2.keyAt = m.keyAt := by
  unfold isolation
  split
  · rfl
  · exact Machine.keyAt_keyRights _ _

end Sealing

/-! ## Entering the store -/

/-- A record enters the store, with guards where the configuration asks
for them. -/
def enroll (w : Warden) (r : Record) : Warden :=
  let done := if w.config.guardPagesActive then Guard.placeAll w.machine r else (r, w.machine)
  { w with store := (w.store.insert done.1).2, machine := done.2 }

/-- To track a mapping is to carve its range out of the records, to enter a
record for it, and to tell. -/
theorem track_eq (w : Warden) (address length : Nat) (rights : Rights) :
    w.track address length rights =
      ((w.carve address (address + roundUp length pageSize) none).enroll
        (.fresh address length rights)).tell (.tracking address length rights) := by
  unfold track
  generalize w.carve address (address + roundUp length pageSize) none = v
  rfl

/-- A tracked mapping enters once its range is carved out of the others. -/
theorem alike_track (w : Warden) (address length : Nat) (rights : Rights) :
    Alike
      ((w.carve address (address + roundUp length pageSize) none).enroll
        (.fresh address length rights))
      (w.track address length rights) := by
  rw [track_eq]
  exact alike_tell _ rfl

/-- A record enters by having its guards placed. -/
theorem upkeep_enroll (w : Warden) (r : Record) : w.machine.Upkeep (w.enroll r).machine := by
  unfold enroll
  simp only
  split
  · exact Guard.upkeep_placeAll _ _
  · exact .refl

/-- Guards aside, the record that enters is the one that was handed in. -/
theorem bare?_enroll (w : Warden) (r : Record) :
    (w.enroll r).store.bare? =
      Function.update w.store.bare? w.store.nextHandle (some r.bare) := by
  unfold enroll
  simp only
  rw [Store.bare?_insert]
  congr 2
  split
  · exact Guard.bare_placeAll _ _
  · rfl

/-! ## The requests -/

/-- Scratch memory is asked for without replacing anything. -/
theorem fixed_privateAnonymous : MapFlags.privateAnonymous.fixed = false := by decide

/-- It has no file behind it. -/
theorem isAnonymous_ofLength (length : Nat) (rights : Rights) :
    (MapRequest.ofLength length rights).isAnonymous = true := by
  show MapFlags.privateAnonymous.anonymous = true
  decide

variable (w : Warden)

/-- **The memory is not reserved, and nothing changes, or the machine found
room for it.** -/
theorem reserve_cases (size codeSize : Nat) :
    (∃ f v, w.reserve size codeSize = (.error f, v) ∧ Alike w v) ∨
      ∃ a m, w.config.useMappingCache = true ∧
        w.machine.map (.ofLength size .readWrite) = (.ok a, m) ∧
        w.reserve size codeSize = (.ok a, { w with machine := m }) := by
  unfold reserve
  split
  · exact Or.inl ⟨_, _, rfl, Alike.refl w⟩
  · rename_i hcache
    split
    · exact Or.inl ⟨_, _, rfl, Alike.refl w⟩
    · split
      · exact Or.inl ⟨_, _, rfl, Alike.refl w⟩
      · split
        · rename_i errno m hmap
          exact Or.inl ⟨_, _, rfl, alike_of_space w (Machine.space_of_map_error hmap)
            (Machine.idle_map hmap)⟩
        · rename_i a m hmap
          exact Or.inr ⟨a, m, Classical.not_not.1 hcache, hmap, rfl⟩

/-- What is mapped to be sealed was free. -/
theorem rightsAt_of_reserved {size a n : Nat} {m m' : Machine}
    (hmap : m.map (.ofLength size .readWrite) = (.ok a, m'))
    (hn : PageIn a (a + roundUp size pageSize) n) : m.rightsAt n = none :=
  Machine.rightsAt_of_map_of_not_fixed hmap fixed_privateAnonymous hn

/-- So no page that was mapped is among it. -/
theorem not_pageIn_of_reserved {size a n : Nat} {m m' : Machine}
    (hmap : m.map (.ofLength size .readWrite) = (.ok a, m')) (hn : (m.rightsAt n).isSome) :
    ¬ PageIn a (a + roundUp size pageSize) n := by
  intro hin
  rw [rightsAt_of_reserved hmap hin] at hn
  cases hn

/-- A fresh mapping is sealed, or cannot be, and no page outside of it
changes. -/
theorem rightsAt_reserved {size a n : Nat} {code : List UInt8} {v m m' : Machine}
    {o : Except Failure (Option Nat)} (hmap : v.map (.ofLength size .readWrite) = (.ok a, m))
    (hseal : sealPages (m.copy a code) a size = (o, m'))
    (hn : ¬ PageIn a (a + roundUp size pageSize) n) : m'.rightsAt n = v.rightsAt n := by
  rw [rightsAt_sealPages hseal (Machine.aligned_of_map hmap).2 hn, Machine.rightsAt_copy,
    Machine.rightsAt_map hmap]
  exact if_neg hn

/-- Nor does one outside of it change when it is taken back. -/
theorem rightsAt_taken_back {size a n : Nat} {code : List UInt8} {v m m' : Machine}
    {o : Except Failure (Option Nat)} (hmap : v.map (.ofLength size .readWrite) = (.ok a, m))
    (hseal : sealPages (m.copy a code) a size = (o, m'))
    (hn : ¬ PageIn a (a + roundUp size pageSize) n) :
    (m'.unmap a size).2.rightsAt n = v.rightsAt n := by
  rcases hunmap : m'.unmap a size with ⟨errno | ⟨⟩, m''⟩
  · rw [Machine.rightsAt, Machine.space_of_unmap_error hunmap]
    exact rightsAt_reserved hmap hseal hn
  · rw [Machine.rightsAt_unmap hunmap, if_neg hn, rightsAt_reserved hmap hseal hn]

/-- **Sealing a fresh mapping** shows in its range and nowhere else. -/
theorem rightsAt_sealed {size a : Nat} {code : List UInt8} {key : Option Nat} {v m m' : Machine}
    (hmap : v.map (.ofLength size .readWrite) = (.ok a, m))
    (hseal : sealPages (m.copy a code) a size = (.ok key, m')) (n : Nat) :
    m'.rightsAt n =
      if PageIn a (a + roundUp size pageSize) n then some .exec else v.rightsAt n := by
  split
  · rename_i hn
    exact rightsAt_of_sealed hseal (Machine.aligned_of_map hmap).2 hn
  · rename_i hn
    exact rightsAt_reserved hmap hseal hn

/-- A key, if there is one, shows there as well. -/
theorem keyAt_sealed {size a : Nat} {code : List UInt8} {key : Option Nat} {v m m' : Machine}
    (hmap : v.map (.ofLength size .readWrite) = (.ok a, m))
    (hseal : sealPages (m.copy a code) a size = (.ok key, m')) (n : Nat) :
    m'.keyAt n = if PageIn a (a + roundUp size pageSize) n then key else v.keyAt n := by
  have hmapped : (m.copy a code).keyAt n =
      if PageIn a (a + roundUp size pageSize) n then none else v.keyAt n := by
    rw [Machine.keyAt_copy]
    exact Machine.keyAt_map hmap n
  rw [keyAt_sealPages hseal (Machine.aligned_of_map hmap).2 fun k hk => ?_]
  · split
    · rfl
    · rename_i hn
      rw [hmapped, if_neg hn]
  · rw [Machine.keyAt_copy, Machine.keyAt_map hmap]
    exact if_pos hk

/-- **What was mapped to be sealed can be**, where nothing is scheduled to
fail. -/
theorem sealPages_of_reserved {size a : Nat} {m m' : Machine} (hm : m.faults = .never)
    (hmap : m.map (.ofLength size .readWrite) = (.ok a, m')) (code : List UInt8) :
    ∃ key m'', sealPages (m'.copy a code) a size = (.ok key, m'') := by
  have hcopied := (Machine.calls_of_map hmap).copy a code
  refine sealPages_of_mapped (hcopied.faults hm) (Machine.aligned_of_map hmap).1
    fun n hn => ?_
  rw [Machine.rightsAt_copy, Machine.rightsAt_map hmap]
  have hrange : PageIn a (a + roundUp (MapRequest.ofLength size .readWrite).length pageSize) n := hn
  rw [if_pos hrange]
  rfl

/-- **The stages of making execute-only memory.** No pages are reserved and
nothing changes; or they are, and either cannot be sealed and are taken
back, or are sealed and a record enters. -/
theorem makeExecuteOnly_stages (size : Nat) (code : List UInt8) :
    ((∃ f, (w.makeExecuteOnly size code).1 = .error f) ∧
        Alike w (w.makeExecuteOnly size code).2) ∨
      ∃ a m, w.config.useMappingCache = true ∧
        w.machine.map (.ofLength size .readWrite) = (.ok a, m) ∧
        ((∃ f m', sealPages (m.copy a code) a size = (.error f, m') ∧
            (w.makeExecuteOnly size code).1 = .error f ∧
            (w.makeExecuteOnly size code).2 = { w with machine := (m'.unmap a size).2 }) ∨
          ∃ key m', sealPages (m.copy a code) a size = (.ok key, m') ∧
            (w.makeExecuteOnly size code).1 = .ok a ∧
            Alike (enroll { w with machine := (isolation m' key).2 }
                { Record.fresh a size .exec with
                  executeOnly := some ⟨key, (isolation m' key).1⟩ })
              (w.makeExecuteOnly size code).2) := by
  unfold makeExecuteOnly
  rcases w.reserve_cases size code.length with ⟨f, v, hv, hsame⟩ | ⟨a, m, hcache, hmap, hv⟩
  · simp only [hv]
    exact Or.inl ⟨⟨f, rfl⟩, hsame⟩
  · refine Or.inr ⟨a, m, hcache, hmap, ?_⟩
    simp only [hv]
    unfold enclose
    rcases hseal : sealPages (m.copy a code) a size with ⟨f | key, m'⟩
    · exact Or.inl ⟨f, m', rfl, rfl, rfl⟩
    · exact Or.inr ⟨key, m', rfl, rfl,
        alike_tell (enroll { w with machine := (isolation m' key).2 } _) rfl⟩

/-- **Making execute-only memory fails and leaves records and mapped pages
alone, or a record enters** for pages that were free and can now be
executed. -/
theorem makeExecuteOnly_cases (size : Nat) (code : List UInt8) :
    ((∃ f, (w.makeExecuteOnly size code).1 = .error f) ∧
        (w.makeExecuteOnly size code).2.store = w.store ∧
        (w.makeExecuteOnly size code).2.config = w.config ∧
        w.machine.Calls (w.makeExecuteOnly size code).2.machine ∧
        ∀ n ρ, w.machine.rightsAt n = some ρ →
          (w.makeExecuteOnly size code).2.machine.rightsAt n = some ρ) ∨
      ∃ a x m, w.config.useMappingCache = true ∧ Aligned a ∧ 0 < size ∧ w.machine.Calls m ∧
        (∀ n, PageIn a (a + roundUp size pageSize) n → w.machine.rightsAt n = none) ∧
        (∀ n, m.rightsAt n =
          if PageIn a (a + roundUp size pageSize) n then some .exec else w.machine.rightsAt n) ∧
        (w.makeExecuteOnly size code).1 = .ok a ∧
        Alike (enroll { w with machine := m }
          { Record.fresh a size .exec with executeOnly := some x })
          (w.makeExecuteOnly size code).2 := by
  rcases w.makeExecuteOnly_stages size code with ⟨hf, hsame⟩ | ⟨a, m, hcache, hmap, hstage⟩
  · exact Or.inl ⟨hf, hsame.store, hsame.config, hsame.calls,
      fun n ρ h => by rw [hsame.rightsAt, h]⟩
  · obtain ⟨ha, hlen⟩ := Machine.aligned_of_map hmap
    have hout : ∀ n ρ, w.machine.rightsAt n = some ρ → ¬ PageIn a (a + roundUp size pageSize) n :=
      fun n ρ hρ => not_pageIn_of_reserved hmap (Option.isSome_iff_exists.2 ⟨ρ, hρ⟩)
    have hcopied := (Machine.calls_of_map hmap).copy a code
    rcases hstage with ⟨f, m', hseal, hf, hv⟩ | ⟨key, m', hseal, hok, hv⟩
    · -- pages that were mapped before lie outside of the range that is taken back
      have hcalls := hcopied.trans (calls_sealPages hseal)
      rw [hv]
      refine Or.inl ⟨⟨f, hf⟩, rfl, rfl, hcalls.unmap a size, fun n ρ hρ => ?_⟩
      exact (rightsAt_taken_back hmap hseal (hout n ρ hρ)).trans hρ
    · have hcalls := hcopied.trans (calls_sealPages hseal)
      refine Or.inr ⟨a, ⟨key, (isolation m' key).1⟩, (isolation m' key).2, hcache, ha, hlen,
        hcalls.trans (path_isolation m' key).calls, fun n => rightsAt_of_reserved hmap,
        fun n => ?_, hok, hv⟩
      rw [rightsAt_isolation]
      exact rightsAt_sealed hmap hseal n

variable {w} in
/-- **Releasing execute-only memory that is found**: the record leaves, its
guards are lifted, and its pages are unmapped if the machine agrees, in
which case the key is given back. -/
theorem releaseExecuteOnly_of_found {address : Nat} {h : Handle} {r : Record} {t : Store}
    (hcache : w.config.useMappingCache = true) (hfind : w.store.find? address = some h)
    (hremove : w.store.remove h = some (r, t)) (hxo : r.executeOnly.isSome) (length : Nat) :
    ∃ m, (m = (Guard.removeAll w.machine r).2 ∨
        ∃ e, e.placed? = none ∧ m = (Guard.removeAll w.machine r).2.tell e) ∧
      ((∃ errno m', m.unmap r.base r.length = (.error errno, m') ∧
          (∃ f, (w.releaseExecuteOnly address length).1 = .error f) ∧
          (w.releaseExecuteOnly address length).2 = { w with store := t, machine := m' }) ∨
        ∃ m', m.unmap r.base r.length = (.ok (), m') ∧
          (w.releaseExecuteOnly address length).1 = .ok () ∧
          (w.releaseExecuteOnly address length).2 =
            releaseKey { w with store := t, machine := m' } r) := by
  have htold : ∃ m, (m = (Guard.removeAll w.machine r).2 ∨
      ∃ e, e.placed? = none ∧ m = (Guard.removeAll w.machine r).2.tell e) ∧
      (if length = r.length then
          { w with store := t, machine := (Guard.removeAll w.machine r).2 }
        else Warden.tell { w with store := t, machine := (Guard.removeAll w.machine r).2 }
          (.releasingWhole address length r.length)) =
        { w with store := t, machine := m } := by
    split
    · exact ⟨_, Or.inl rfl, rfl⟩
    · exact ⟨_, Or.inr ⟨.releasingWhole address length r.length, rfl, rfl⟩, rfl⟩
  obtain ⟨m, hm, htold⟩ := htold
  have hkept : r.executeOnly.isNone = false := Option.isNone_eq_false_iff.2 hxo
  unfold releaseExecuteOnly surrender
  simp only [hcache, not_true_eq_false, if_false, hfind, hremove, hkept, Bool.false_eq_true, htold]
  refine ⟨m, hm, ?_⟩
  rcases hunmap : m.unmap r.base r.length with ⟨errno | ⟨⟩, m'⟩
  · exact Or.inl ⟨errno, m', rfl, ⟨_, rfl⟩, rfl⟩
  · exact Or.inr ⟨m', rfl, rfl, rfl⟩

/-- **The stages of releasing execute-only memory.** Nothing is found to
release and nothing changes; or the record leaves, its guards are lifted,
and its pages are unmapped if the machine agrees, in which case the key
is given back. -/
theorem releaseExecuteOnly_stages (address length : Nat) :
    ((∃ f, (w.releaseExecuteOnly address length).1 = .error f) ∧
        Alike w (w.releaseExecuteOnly address length).2) ∨
      ∃ h r t m, w.config.useMappingCache = true ∧ w.store.find? address = some h ∧
        w.store.remove h = some (r, t) ∧ r.executeOnly.isSome ∧
        (m = (Guard.removeAll w.machine r).2 ∨
          ∃ e, e.placed? = none ∧ m = (Guard.removeAll w.machine r).2.tell e) ∧
        ((∃ errno m', m.unmap r.base r.length = (.error errno, m') ∧
            (∃ f, (w.releaseExecuteOnly address length).1 = .error f) ∧
            (w.releaseExecuteOnly address length).2 = { w with store := t, machine := m' }) ∨
          ∃ m', m.unmap r.base r.length = (.ok (), m') ∧
            (w.releaseExecuteOnly address length).1 = .ok () ∧
            (w.releaseExecuteOnly address length).2 =
              releaseKey { w with store := t, machine := m' } r) := by
  by_cases hfound : w.config.useMappingCache = true ∧ ∃ h r t, w.store.find? address = some h ∧
      w.store.remove h = some (r, t) ∧ r.executeOnly.isSome = true
  · obtain ⟨hcache, h, r, t, hfind, hremove, hxo⟩ := hfound
    obtain ⟨m, hm, hstage⟩ := releaseExecuteOnly_of_found hcache hfind hremove hxo length
    exact Or.inr ⟨h, r, t, m, hcache, hfind, hremove, hxo, hm, hstage⟩
  · have hnone : ∃ f, w.surrender address length = (.error f, w) := by
      unfold surrender
      split
      · exact ⟨_, rfl⟩
      · rename_i hcache
        split
        · exact ⟨_, rfl⟩
        · rename_i h hfind
          split
          · exact ⟨_, rfl⟩
          · rename_i r t hremove
            split
            · exact ⟨_, rfl⟩
            · rename_i hxo
              rw [Bool.not_eq_true, Option.isNone_eq_false_iff] at hxo
              exact absurd ⟨Classical.not_not.1 hcache, h, r, t, hfind, hremove, hxo⟩ hfound
    obtain ⟨f, hf⟩ := hnone
    unfold releaseExecuteOnly
    rw [hf]
    exact Or.inl ⟨⟨f, rfl⟩, Alike.refl w⟩

/-- **Releasing execute-only memory fails and changes nothing, or the
record leaves**: its guards are lifted, and its pages are unmapped if the
machine agrees. -/
theorem releaseExecuteOnly_cases (address length : Nat) :
    ((∃ f, (w.releaseExecuteOnly address length).1 = .error f) ∧
        Alike w (w.releaseExecuteOnly address length).2) ∨
      ∃ h r t m o m', w.config.useMappingCache = true ∧ w.store.find? address = some h ∧
        w.store.remove h = some (r, t) ∧ r.executeOnly.isSome ∧
        (m = (Guard.removeAll w.machine r).2 ∨
          ∃ e, m = (Guard.removeAll w.machine r).2.tell e) ∧
        m.unmap r.base r.length = (o, m') ∧
        (o = .ok () ↔ (w.releaseExecuteOnly address length).1 = .ok ()) ∧
        (w.releaseExecuteOnly address length).2.store = t ∧
        (w.releaseExecuteOnly address length).2.config = w.config ∧
        m'.Calls (w.releaseExecuteOnly address length).2.machine ∧
        (w.releaseExecuteOnly address length).2.machine.rightsAt = m'.rightsAt := by
  rcases w.releaseExecuteOnly_stages address length with
    hnone | ⟨h, r, t, m, hcache, hfind, hremove, hsome, hm, hstage⟩
  · exact Or.inl hnone
  · have hm : m = (Guard.removeAll w.machine r).2 ∨
        ∃ e, m = (Guard.removeAll w.machine r).2.tell e := by
      rcases hm with hm | ⟨e, -, hm⟩
      · exact Or.inl hm
      · exact Or.inr ⟨e, hm⟩
    refine Or.inr ⟨h, r, t, m, ?_⟩
    rcases hstage with ⟨errno, m', hunmap, ⟨f, hf⟩, hv⟩ | ⟨m', hunmap, hok, hv⟩
    · refine ⟨_, m', hcache, hfind, hremove, hsome, hm, hunmap, ?_, by rw [hv], by rw [hv], ?_, ?_⟩
      · rw [hf]
        constructor <;> intro hok <;> cases hok
      · rw [hv]
        exact .refl
      · rw [hv]
    · refine ⟨_, m', hcache, hfind, hremove, hsome, hm, hunmap, iff_of_true rfl hok, ?_⟩
      rw [hv]
      exact ⟨store_releaseKey _ _, config_releaseKey _ _,
        (upkeep_releaseKey { w with store := t, machine := m' } r).calls,
        rightsAt_releaseKey _ _⟩

end Warden

end PageWarden
