import PageWarden.Proofs.Memory.Key
import PageWarden.Proofs.Memory.Move
import PageWarden.Proofs.Path
/-!
# Tags — which keys pages carry

A page is tagged with a key in use and carries it until it is unmapped; a
move takes the tags of its pages along. Keys are numbered in the order in
which they are allocated and no number is given out twice, so a key that
is just allocated is on no page yet (`Machine.Issued`, `Calls.issued`).

A key that is given back while a page carries it may be allocated anew
for somebody else. Where no call gives back such a key (`FreesUnused`),
what a page carries is in use (`Path.allocated`).
-/

namespace PageWarden

namespace Space

/-- The key is in use. -/
def Allocated (s : Space) (κ : Nat) : Prop := ∃ ρ, (κ, ρ) ∈ s.keys

/-- What is known of keys: the number of the next one, and those in use. -/
def register (s : Space) : Nat × List (Nat × KeyRights) := (s.nextKey, s.keys)

variable {s : Space} {κ : Nat}

/-- A key that has rights is in use. -/
theorem allocated_of_keyRights (h : s.keyRights κ ≠ none) : s.Allocated κ := by
  obtain ⟨ρ, hρ⟩ := Option.ne_none_iff_exists'.1 h
  obtain ⟨before, after, hkeys, -⟩ := List.lookup_eq_some_iff.1 hρ
  refine ⟨ρ, ?_⟩
  rw [hkeys]
  exact List.mem_append_right before List.mem_cons_self

theorem register_map (s : Space) (address length : Nat) (rights : Rights) (flags : MapFlags) :
    (s.map address length rights flags).2.register = s.register := by
  unfold map
  split
  · rfl
  · split <;> rfl

theorem register_unmap (s : Space) (address length : Nat) :
    (s.unmap address length).2.register = s.register := by
  unfold unmap
  split <;> rfl

theorem register_protect (s : Space) (address length : Nat) (rights : Rights) :
    (s.protect address length rights).2.register = s.register := by
  unfold protect
  split
  · rfl
  · split <;> rfl

theorem register_move (s : Space) (q : MoveRequest) : (s.move q).2.register = s.register := by
  unfold move
  simp only
  split
  · rfl
  · split
    · rfl
    · split
      · split <;> rfl
      · split
        · rfl
        · split
          · split <;> rfl
          · split
            · rfl
            · split <;> rfl

theorem register_keyProtect (s : Space) (address length : Nat) (rights : Rights) (key : Nat) :
    (s.keyProtect address length rights key).2.register = s.register := by
  unfold keyProtect
  split
  · rfl
  · split
    · rfl
    · split <;> rfl

theorem register_write (s : Space) (address length : Nat) (source : Nat → UInt8) :
    (s.write address length source).register = s.register := by
  unfold write
  split <;> rfl

end Space

namespace Machine

variable {m m' : Machine} {c : Act} {κ n : Nat}

/-! ## What calls make of the register -/

/-- What an action leaves of the register a call leaves of it. -/
theorem register_perform {α : Type} (m : Machine) (p : Primitive)
    {act : Space → Except Errno α × Space} (entry : Except Errno α → Call)
    (hact : ∀ s, (act s).2.register = s.register) :
    (m.perform p act entry).2.space.register = m.space.register := by
  rcases perform_cases m p act entry with ⟨_, -, hs⟩ | ⟨-, hs⟩
  · rw [hs]
  · rw [hs, hact]

/-- Mapping issues no keys. -/
theorem register_map (m : Machine) (q : MapRequest) :
    (m.map q).2.space.register = m.space.register := by
  refine register_perform m _ _ fun s => ?_
  split
  · rfl
  · exact Space.register_map s _ _ _ _

/-- Nor does unmapping. -/
theorem register_unmap (m : Machine) (address length : Nat) :
    (m.unmap address length).2.space.register = m.space.register :=
  register_perform m _ _ fun s => s.register_unmap address length

/-- Nor does the placing of a guard. -/
theorem register_place (m : Machine) (address : Nat) :
    (Guard.place m address).2.space.register = m.space.register := by
  have hmap := register_map m (Guard.request address)
  unfold Guard.place
  split <;> rename_i hq <;> rw [hq] at hmap
  · split
    · exact hmap
    · exact (register_unmap _ _ _).trans hmap
  · exact hmap

/-- **A call issues the next key, or gives one back, or leaves the register
alone.** -/
theorem register_act (m : Machine) (c : Act) :
    (m.act c).space.register = m.space.register ∨
      (∃ ρ, c = .keyAlloc ρ ∧ (m.act c).space.register =
        (m.space.nextKey + 1, m.space.keys ++ [(m.space.nextKey, ρ)])) ∨
      ∃ κ, c = .keyFree κ ∧ (m.act c).space.register =
        (m.space.nextKey, m.space.keys.filter fun k => k.1 ≠ κ) := by
  cases c with
  | map q => exact Or.inl (register_map m q)
  | unmap a l => exact Or.inl (register_unmap m a l)
  | protect a l ρ => exact Or.inl (register_perform m _ _ fun s => s.register_protect a l ρ)
  | move q => exact Or.inl (register_perform m _ _ fun s => s.register_move q)
  | fill a l byte => exact Or.inl (m.space.register_write a l fun _ => byte)
  | copy a bytes => exact Or.inl (m.space.register_write a bytes.length _)
  | keyAlloc ρ =>
    show (m.keyAlloc ρ).2.space.register = _ ∨ _
    rcases m.keyAlloc_cases ρ with ⟨_, m', halloc, hs, -⟩ | ⟨m', halloc, -, -, hs⟩
    · rw [halloc, hs]
      exact Or.inl rfl
    · refine Or.inr (Or.inl ⟨ρ, rfl, ?_⟩)
      show (m.keyAlloc ρ).2.space.register = _
      rw [halloc, hs]
      rfl
  | keyProtect a l ρ κ =>
    refine Or.inl ?_
    show (m.keyProtect a l ρ κ).2.space.register = _
    unfold keyProtect
    split
    · exact register_perform m _ _ fun s => s.register_keyProtect a l ρ κ
    · rfl
  | keyRights κ =>
    refine Or.inl ?_
    show (m.keyRights κ).2.space.register = _
    unfold keyRights
    split <;> rfl
  | keyFree κ =>
    show (m.keyFree κ).space.register = _ ∨ _
    unfold keyFree
    split
    · rename_i hcalls
      refine Or.inr (Or.inr ⟨κ, rfl, ?_⟩)
      show (m.keyFree κ).space.register = _
      unfold keyFree
      rw [if_pos hcalls]
      rfl
    · exact Or.inl rfl
  | place a => exact Or.inl (register_place m a)

/-- The numbers of keys only grow. -/
theorem nextKey_act (m : Machine) (c : Act) : m.space.nextKey ≤ (m.act c).space.nextKey := by
  rcases m.register_act c with h | ⟨_, -, h⟩ | ⟨_, -, h⟩ <;>
    have hnext := congrArg Prod.fst h <;>
    simp only [Space.register] at hnext <;> omega

/-- A key in use after a call was in use before, or is the one it issued. -/
theorem allocated_of_act (h : (m.act c).space.Allocated κ) :
    m.space.Allocated κ ∨ κ < (m.act c).space.nextKey := by
  obtain ⟨ρ, hρ⟩ := h
  rcases m.register_act c with hsame | ⟨σ, -, hnew⟩ | ⟨_, -, hfreed⟩
  · have hkeys : (m.act c).space.keys = m.space.keys := congrArg Prod.snd hsame
    rw [hkeys] at hρ
    exact Or.inl ⟨ρ, hρ⟩
  · have hkeys : (m.act c).space.keys = _ := congrArg Prod.snd hnew
    have hnext : (m.act c).space.nextKey = _ := congrArg Prod.fst hnew
    rw [hkeys, List.mem_append, List.mem_singleton] at hρ
    rcases hρ with hold | hissued
    · exact Or.inl ⟨ρ, hold⟩
    · obtain ⟨rfl, -⟩ := Prod.mk.inj hissued
      exact Or.inr (by rw [hnext]; exact Nat.lt_succ_self _)
  · have hkeys : (m.act c).space.keys = _ := congrArg Prod.snd hfreed
    rw [hkeys] at hρ
    exact Or.inl ⟨ρ, (List.mem_filter.1 hρ).1⟩

/-- A key stays in use unless it is given back. -/
theorem allocated_act (h : m.space.Allocated κ) (hc : c ≠ .keyFree κ) :
    (m.act c).space.Allocated κ := by
  obtain ⟨ρ, hρ⟩ := h
  refine ⟨ρ, ?_⟩
  rcases m.register_act c with hsame | ⟨σ, -, hnew⟩ | ⟨κ', rfl, hfreed⟩
  · rw [show (m.act c).space.keys = m.space.keys from congrArg Prod.snd hsame]
    exact hρ
  · rw [show (m.act c).space.keys = _ from congrArg Prod.snd hnew]
    exact List.mem_append_left _ hρ
  · rw [show (m.act (.keyFree κ')).space.keys = _ from congrArg Prod.snd hfreed]
    refine List.mem_filter.2 ⟨hρ, decide_eq_true ?_⟩
    rintro rfl
    exact hc rfl

/-! ## What calls make of tags -/

/-- What can be used to tag pages is in use. -/
theorem allocated_of_keyProtect {address length : Nat} {rights : Rights} {key : Nat}
    (h : m.keyProtect address length rights key = (.ok (), m')) : m.space.Allocated key := by
  unfold keyProtect at h
  split at h
  · have hs := perform_ok h
    simp only [Space.keyProtect] at hs
    split at hs
    · cases hs
    · rename_i hrights
      exact Space.allocated_of_keyRights hrights
  · cases h

/-- **The tag of a page was on a page before**, or is of a key in use. -/
theorem keyAt_of_act (h : (m.act c).keyAt n = some κ) :
    (∃ k, m.keyAt k = some κ) ∨ m.space.Allocated κ := by
  have hsame : ∀ {v : Machine}, v.space = m.space → v.keyAt n = some κ →
      (∃ k, m.keyAt k = some κ) ∨ m.space.Allocated κ := by
    intro v hs hv
    refine Or.inl ⟨n, ?_⟩
    rw [← keyAt_congr (congrFun (pageAt_of_space hs) n)]
    exact hv
  cases c with
  | map q =>
    have h : (m.map q).2.keyAt n = some κ := h
    rcases hmap : m.map q with ⟨errno | a, m'⟩ <;> rw [hmap] at h
    · exact hsame (space_of_map_error hmap) h
    · exact Or.inl ⟨n, (keyAt_of_map hmap h).2⟩
  | unmap a l =>
    have h : (m.unmap a l).2.keyAt n = some κ := h
    rcases hunmap : m.unmap a l with ⟨errno | ⟨⟩, m'⟩ <;> rw [hunmap] at h
    · exact hsame (space_of_unmap_error hunmap) h
    · exact Or.inl ⟨n, (keyAt_of_unmap hunmap h).2⟩
  | protect a l ρ =>
    have h : (m.protect a l ρ).2.keyAt n = some κ := h
    rcases hprotect : m.protect a l ρ with ⟨errno | ⟨⟩, m'⟩ <;> rw [hprotect] at h
    · exact hsame (space_of_protect_error hprotect) h
    · rw [keyAt_protect hprotect] at h
      exact Or.inl ⟨n, h⟩
  | move q =>
    have h : (m.move q).2.keyAt n = some κ := h
    rcases hmove : m.move q with ⟨errno | moved, m'⟩ <;> rw [hmove] at h
    · exact Or.inl ⟨n, keyAt_of_move_error hmove h⟩
    · exact Or.inl (keyAt_of_move hmove h)
  | fill a l byte =>
    have h : (m.fill a l byte).keyAt n = some κ := h
    rw [keyAt_fill] at h
    exact Or.inl ⟨n, h⟩
  | copy a bytes =>
    have h : (m.copy a bytes).keyAt n = some κ := h
    rw [keyAt_copy] at h
    exact Or.inl ⟨n, h⟩
  | keyAlloc ρ =>
    have h : (m.keyAlloc ρ).2.keyAt n = some κ := h
    rw [keyAt, pageAt_keyAlloc] at h
    exact Or.inl ⟨n, h⟩
  | keyProtect a l ρ key =>
    have h : (m.keyProtect a l ρ key).2.keyAt n = some κ := h
    -- an empty range has no page to tag
    by_cases hlen : 0 < l
    · rcases htag : m.keyProtect a l ρ key with ⟨errno | ⟨⟩, m'⟩ <;> rw [htag] at h
      · exact hsame (space_of_keyProtect_error htag) h
      · rw [keyAt_keyProtect htag hlen] at h
        split at h
        · cases h
          exact Or.inr (allocated_of_keyProtect htag)
        · exact Or.inl ⟨n, h⟩
    · obtain rfl : l = 0 := by omega
      rcases htag : m.keyProtect a 0 ρ key with ⟨errno | ⟨⟩, m'⟩ <;> rw [htag] at h
      · exact hsame (space_of_keyProtect_error htag) h
      · exact hsame (space_of_keyProtect_empty htag) h
  | keyRights key =>
    have h : (m.keyRights key).2.keyAt n = some κ := h
    rw [keyAt_keyRights] at h
    exact Or.inl ⟨n, h⟩
  | keyFree key =>
    have h : (m.keyFree key).keyAt n = some κ := h
    rw [keyAt_keyFree] at h
    exact Or.inl ⟨n, h⟩
  | place a =>
    have h : (Guard.place m a).2.keyAt n = some κ := h
    rw [Guard.keyAt_place] at h
    exact Or.inl ⟨n, h⟩

/-! ## Numbers -/

/-- **The next key is a new one**: its number is on no page and not in
use. -/
structure Issued (m : Machine) : Prop where
  allocated : ∀ {κ}, m.space.Allocated κ → κ < m.space.nextKey
  tagged : ∀ {n κ}, m.keyAt n = some κ → κ < m.space.nextKey

/-- One call leaves the next key a new one. -/
theorem Issued.act (hm : m.Issued) (c : Act) : (m.act c).Issued := by
  have hgrow := m.nextKey_act c
  constructor
  · intro κ hκ
    rcases allocated_of_act hκ with hold | hnew
    · exact Nat.lt_of_lt_of_le (hm.allocated hold) hgrow
    · exact hnew
  · intro n κ hκ
    rcases keyAt_of_act hκ with ⟨k, hk⟩ | hold
    · exact Nat.lt_of_lt_of_le (hm.tagged hk) hgrow
    · exact Nat.lt_of_lt_of_le (hm.allocated hold) hgrow

/-- **Calls leave the next key a new one**, and its number only grows. -/
theorem Calls.issued (h : m.Calls m') (hm : m.Issued) :
    m'.Issued ∧ m.space.nextKey ≤ m'.space.nextKey := by
  have hact : ∀ {v : Machine} (c : Act), v.Issued ∧ m.space.nextKey ≤ v.space.nextKey →
      (v.act c).Issued ∧ m.space.nextKey ≤ (v.act c).space.nextKey :=
    fun c hv => ⟨hv.1.act c, Nat.le_trans hv.2 (nextKey_act _ c)⟩
  induction h with
  | refl => exact ⟨hm, Nat.le_refl _⟩
  | tell _ _ ih => exact ⟨⟨ih.1.allocated, ih.1.tagged⟩, ih.2⟩
  | map _ q ih => exact hact (.map q) ih
  | unmap _ a l ih => exact hact (.unmap a l) ih
  | protect _ a l ρ ih => exact hact (.protect a l ρ) ih
  | move _ q ih => exact hact (.move q) ih
  | fill _ a l byte ih => exact hact (.fill a l byte) ih
  | copy _ a bytes ih => exact hact (.copy a bytes) ih
  | keyAlloc _ ρ ih => exact hact (.keyAlloc ρ) ih
  | keyProtect _ a l ρ κ ih => exact hact (.keyProtect a l ρ κ) ih
  | keyRights _ κ ih => exact hact (.keyRights κ) ih
  | keyFree _ κ ih => exact hact (.keyFree κ) ih

end Machine

/-! ## Tags of keys in use -/

/-- The call gives back no key that a page carries. -/
def FreesUnused (m : Machine) (c : Act) : Prop := ∀ κ n, c = .keyFree κ → m.keyAt n ≠ some κ

namespace Machine

variable {m m' : Machine}

/-- **What a page carries stays in use** where no key is given back that a
page carries: if the key was in use at first, or on no page. -/
theorem Path.allocated {κ n : Nat} (h : m.Path FreesUnused m')
    (hm : ∀ k, m.keyAt k = some κ → m.space.Allocated κ) (hn : m'.keyAt n = some κ) :
    m'.space.Allocated κ := by
  have hkept : ∀ k, m'.keyAt k = some κ → m'.space.Allocated κ := by
    refine h.keeps (P := fun v => ∀ k, v.keyAt k = some κ → v.space.Allocated κ) hm
      (fun _ _ hv => hv) fun v c hc hv k hk => ?_
    have hused : v.space.Allocated κ := by
      rcases keyAt_of_act hk with ⟨k', hk'⟩ | hused
      · exact hv k' hk'
      · exact hused
    refine allocated_act hused ?_
    rintro rfl
    have hk : (v.keyFree κ).keyAt k = some κ := hk
    rw [keyAt_keyFree] at hk
    exact hc κ k rfl hk
  exact hkept n hn

end Machine

end PageWarden
