import PageWarden.Proofs.Steps.FollowUp
/-!
# Paths — every operation call by call

Where idle calls and guards may be made anywhere (`Lenient`), an
operation is a path as soon as its own call is allowed, and the clearing
that follows it is a path. One lemma for each operation says which call
and which clearing that are, so a law about calls is proved of these and
of nothing else.
-/

namespace PageWarden

namespace Machine

/-- Idle calls may be made anywhere, and guards placed. -/
structure Lenient (Allowed : Machine → Act → Prop) : Prop where
  idle : ∀ {v : Machine} {c : Act}, c.Idle v → Allowed v c
  place : ∀ (v : Machine) (address : Nat), Allowed v (.place address)

variable {Allowed : Machine → Act → Prop} {m m' : Machine}

/-- Idle calls are a path. -/
theorem Path.ofIdle (hA : Lenient Allowed) (h : m.Path Act.Idle m') : m.Path Allowed m' :=
  h.mono fun _ _ hc => hA.idle hc

end Machine

open Machine (Lenient)

namespace Warden

variable {Allowed : Machine → Act → Prop} {w : Warden}

/-- A mapping is followed up by carving its range out of the records. -/
theorem path_settle (hA : Lenient Allowed) {q : MapRequest} {a : Nat} (hs : w.store.Shaped)
    (ha : Aligned a)
    (hclear : ∀ {V m}, w.config.useMappingCache = true →
      Clearing a (a + roundUp q.length pageSize) none w.store.get? w.machine V m →
      w.machine.Path Allowed m) :
    w.machine.Path Allowed (w.settle q a).machine := by
  by_cases hcache : w.config.useMappingCache = true
  · have hcarve := hclear hcache (clearing_carve hs (ha.add_roundUp _) w.live_none)
    by_cases hanon : q.isAnonymous = true
    · exact hcarve.trans ((guarding_settle hcache hanon a).path hA.place)
    · rw [settle_of_file hcache hanon]
      exact hcarve
  · unfold settle
    rw [if_neg hcache]
    exact .refl

/-- **The path of a creation**: the mapping, and the clearing of its range. -/
theorem path_create (hA : Lenient Allowed) (hs : w.store.Shaped) {q : MapRequest}
    (hmap : ∀ {a m}, w.machine.map q = (.ok a, m) → (w.create q).1 = .ok a →
      Allowed w.machine (.map q))
    (hclear : ∀ {a m V m'}, w.config.useMappingCache = true → w.machine.map q = (.ok a, m) →
      (w.create q).1 = .ok a →
      Clearing a (a + roundUp q.length pageSize) none w.store.get? m V m' → m.Path Allowed m') :
    w.machine.Path Allowed (w.create q).2.machine := by
  rcases w.create_cases q with ⟨-, h⟩ | ⟨a, m, hq, hok, h⟩
  · exact h.path.ofIdle hA
  · have hmapped : w.machine.Path Allowed m :=
      Machine.Path.refl.step (hmap hq hok) (congrArg Prod.snd hq)
    refine (hmapped.trans ?_).trans (h.path.ofIdle hA)
    exact path_settle (w := { w with machine := m }) hA hs (Machine.aligned_of_map hq).1
      fun hcache => hclear hcache hq hok

/-- **The path of a release**: the unmapping, and the clearing of its
range. -/
theorem path_remove (hA : Lenient Allowed) (hs : w.store.Shaped) {a l : Nat}
    (hunmap : ∀ {m}, w.machine.unmap a l = (.ok (), m) → Allowed w.machine (.unmap a l))
    (hclear : ∀ {m V m'}, w.config.useMappingCache = true →
      w.machine.unmap a l = (.ok (), m) →
      Clearing a (a + roundUp l pageSize) none w.store.get? m V m' → m.Path Allowed m') :
    w.machine.Path Allowed (w.remove a l).2.machine := by
  rcases w.remove_cases a l with ⟨-, h⟩ | ⟨m, hq, -, h⟩
  · exact h.path.ofIdle hA
  · obtain ⟨ha, hlen⟩ := Machine.aligned_of_unmap hq
    have hunmapped : w.machine.Path Allowed m :=
      Machine.Path.refl.step (hunmap hq) (congrArg Prod.snd hq)
    rw [h]
    split
    · rename_i hcache
      obtain ⟨V, m', hcleared, -, hguard⟩ :=
        vacate_steps (w := { w with machine := m }) hs ha hlen
      exact (hunmapped.trans (hclear hcache hq hcleared)).trans (hguard.path hA.place)
    · exact hunmapped

/-- Noting a change of protection is telling. -/
theorem path_note (w : Warden) (a l : Nat) (ρ : Rights) :
    w.machine.Path Allowed (w.note a l ρ).machine := by
  cases hfound : w.found a with
  | none =>
    rw [note_of_not_found hfound]
    exact .refl
  | some h =>
    obtain ⟨r, hr⟩ := exists_of_found hfound
    unfold note
    rw [hfound]
    unfold noteProtection
    simp only [hr]
    split
    · exact Machine.Path.refl.tell rfl
    · exact (Machine.Path.refl.tell rfl).tell rfl

/-- **A change of protection is idle.** -/
theorem path_reprotect (w : Warden) (a l : Nat) (ρ : Rights) :
    w.machine.Path Act.Idle (w.reprotect a l ρ).2.machine := by
  rcases w.reprotect_cases a l ρ with ⟨-, h⟩ | ⟨m, hq, -, h⟩
  · exact h.path
  · rw [h]
    exact (Machine.idle_protect hq).trans (path_note { w with machine := m } a l ρ)

/-- **The path of a move while tracking**: the lifting of the guards of the
record that is found, the move, and the clearing of the new range. -/
theorem path_relocate (hA : Lenient Allowed) (hs : w.store.Shaped)
    (hcache : w.config.useMappingCache = true) {q : MoveRequest}
    (hlift : w.machine.Path Allowed (w.lifted q.address).machine)
    (hmove : ∀ {o m}, (w.lifted q.address).machine.move q = (o, m) →
      (∀ moved, o = .ok moved → (w.relocate q).1 = .ok moved) →
      Allowed (w.lifted q.address).machine (.move q))
    (hclear : ∀ {moved m V m'}, (w.lifted q.address).machine.move q = (.ok moved, m) →
      (w.relocate q).1 = .ok moved →
      Clearing moved (moved + roundUp q.newLength pageSize) (w.store.find? q.address)
        (w.lifted q.address).store.get? m V m' → m.Path Allowed m') :
    w.machine.Path Allowed (w.relocate q).2.machine := by
  rcases w.relocate_cases q hcache with ⟨e, m, hq, -, h⟩ | ⟨moved, m, hq, hok, -⟩
  · have hmove := hmove hq fun _ hok => nomatch hok
    rw [h]
    refine (hlift.step hmove (congrArg Prod.snd hq)).trans ?_
    exact (guarding_restore { w.lifted q.address with machine := m } _ _ _).path hA.place
  · have hmove := hmove hq fun moved' heq => Except.ok.inj heq ▸ hok
    have hmoved : w.machine.Path Allowed m := hlift.step hmove (congrArg Prod.snd hq)
    obtain ⟨V, m', hcleared, -, hstage⟩ := relocate_steps hs hcache hq
    refine hmoved.trans ((hclear hq hok hcleared).trans ?_)
    rcases hstage with ⟨-, -, hm⟩ | ⟨h, f, -, -, -, hguard⟩
    · rw [hm]
      exact .refl
    · exact hguard.path hA.place

/-- Without tracking a move is one call. -/
theorem path_relocate_of_not_cache (hcache : w.config.useMappingCache = false) {q : MoveRequest}
    (hmove : ∀ {o m}, w.machine.move q = (o, m) →
      (∀ moved, o = .ok moved → (w.relocate q).1 = .ok moved) → Allowed w.machine (.move q)) :
    w.machine.Path Allowed (w.relocate q).2.machine := by
  have hrelocate : (w.relocate q).2.machine = (w.machine.move q).2 ∧
      ∀ moved, (w.machine.move q).1 = .ok moved → (w.relocate q).1 = .ok moved := by
    unfold relocate
    rw [hcache]
    simp only [Bool.false_eq_true, if_false]
    split <;> rename_i hq <;> rw [hq]
    · exact ⟨rfl, fun _ hok => nomatch hok⟩
    · exact ⟨rfl, fun _ hok => Except.ok.inj hok ▸ rfl⟩
  rw [hrelocate.1]
  exact Machine.Path.refl.act (.move q) (hmove rfl hrelocate.2)

/-- **The path of making execute-only memory**, where sealing does not
fail: the mapping, and nothing else that is not idle. -/
theorem path_makeExecuteOnly (hA : Lenient Allowed) {size : Nat} {code : List UInt8}
    (hmap : ∀ {a m}, w.machine.map (.ofLength size .readWrite) = (.ok a, m) →
      Allowed w.machine (.map (.ofLength size .readWrite)))
    (hseal : ∀ {a m}, w.machine.map (.ofLength size .readWrite) = (.ok a, m) →
      ∃ key m', sealPages (m.copy a code) a size = (.ok key, m')) :
    w.machine.Path Allowed (w.makeExecuteOnly size code).2.machine := by
  rcases w.makeExecuteOnly_stages size code with ⟨-, h⟩ | ⟨a, m, -, hq, hstage⟩
  · exact h.path.ofIdle hA
  · have hmapped : w.machine.Path Allowed (m.copy a code) :=
      (Machine.Path.refl.step (hmap hq) (congrArg Prod.snd hq)).act (.copy a code)
        (hA.idle (c := .copy a code) trivial)
    obtain ⟨key, m', hsealed⟩ := hseal hq
    rcases hstage with ⟨f, m'', hfailed, -, -⟩ | ⟨key', m'', hok, -, h⟩
    · rw [hsealed] at hfailed
      cases hfailed
    · rcases path_sealPages hok with hidle | ⟨⟨f, hf⟩, -⟩
      · have hready := hidle.trans (path_isolation m'' key')
        refine ((hmapped.trans (hready.ofIdle hA)).trans ?_).trans (h.path.ofIdle hA)
        exact (guarding_enroll { w with machine := (isolation m'' key').2 } _).path hA.place
      · cases hf

/-- **The path of a release of execute-only memory**: the lifting of the
record's guards, the unmapping of its pages, and the freeing of its key. -/
theorem path_releaseExecuteOnly (hA : Lenient Allowed) {a l : Nat}
    (hlift : ∀ {h r}, w.store.find? a = some h → w.store.get? h = some r →
      r.executeOnly.isSome = true → w.machine.Path Allowed (Guard.removeAll w.machine r).2)
    (hunmap : ∀ {h r} {m : Machine}, w.store.find? a = some h → w.store.get? h = some r →
      r.executeOnly.isSome = true → (Guard.removeAll w.machine r).2.space = m.space →
      Allowed m (.unmap r.base r.length))
    (hfree : ∀ {h r t κ} {m m' : Machine}, w.store.find? a = some h →
      w.store.remove h = some (r, t) →
      (Guard.removeAll w.machine r).2.space = m.space →
      m.unmap r.base r.length = (.ok (), m') → r.key = some κ → ¬ View.Keys t.get? κ →
      Allowed m' (.keyFree κ)) :
    w.machine.Path Allowed (w.releaseExecuteOnly a l).2.machine := by
  rcases w.releaseExecuteOnly_stages a l with
    ⟨-, h⟩ | ⟨h, r, t, m, -, hfind, hremove, hxo, hm, hstage⟩
  · exact h.path.ofIdle hA
  · have hr := (Store.remove_eq_some_iff.1 hremove).1
    have hlifted : w.machine.Path Allowed m := by
      rcases hm with rfl | ⟨e, he, rfl⟩
      · exact hlift hfind hr hxo
      · exact (hlift hfind hr hxo).tell he
    -- what the release tells in between does not touch the pages
    have hspace : (Guard.removeAll w.machine r).2.space = m.space := by
      rcases hm with rfl | ⟨e, -, rfl⟩ <;> rfl
    have hallowed := hunmap hfind hr hxo hspace
    rcases hstage with ⟨errno, m', hq, -, hv⟩ | ⟨m', hq, -, hv⟩
    · rw [hv]
      exact hlifted.step hallowed (congrArg Prod.snd hq)
    · have hunmapped : w.machine.Path Allowed m' := hlifted.step hallowed (congrArg Prod.snd hq)
      rw [hv]
      unfold releaseKey
      split
      · exact hunmapped
      · rename_i κ hκ
        split
        · exact hunmapped.tell rfl
        · rename_i hno
          rw [any_key_iff] at hno
          exact (hunmapped.act (.keyFree κ) (hfree hfind hremove hspace hq hκ hno)).tell rfl

end Warden

end PageWarden
