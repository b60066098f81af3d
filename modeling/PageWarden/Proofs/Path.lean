import PageWarden.Proofs.Calls
/-!
# Paths — an operation call by call

What an operation does to the machine is one thing, on which calls it
gets there is another: no page may be lost on the way, no key given back
while it is in use. A path (`Machine.Path`) is a stretch of calls each of
which is allowed where it is made, in the state the machine is in just
then.

Idle calls (`Act.Idle`) neither map nor unmap anything: they change
bytes, rights and tags of mapped pages, or fail.
-/

namespace PageWarden

/-- A call of the machine, without its outcome. Placing a guard counts as
one call: a page that the system put elsewhere is dropped at once. -/
inductive Act where
  | map (request : MapRequest)
  | unmap (address length : Nat)
  | protect (address length : Nat) (rights : Rights)
  | move (request : MoveRequest)
  | fill (address length : Nat) (byte : UInt8)
  | copy (address : Nat) (bytes : List UInt8)
  | keyAlloc (rights : KeyRights)
  | keyProtect (address length : Nat) (rights : Rights) (key : Nat)
  | keyRights (key : Nat)
  | keyFree (key : Nat)
  | place (address : Nat)

/-- The page that an event says a guard was placed on. -/
def Event.placed? : Event → Option Nat
  | .guardMapped address => some address
  | _ => none

namespace Machine

/-- Makes a call. -/
def act (m : Machine) : Act → Machine
  | .map q => (m.map q).2
  | .unmap a l => (m.unmap a l).2
  | .protect a l ρ => (m.protect a l ρ).2
  | .move q => (m.move q).2
  | .fill a l byte => m.fill a l byte
  | .copy a bytes => m.copy a bytes
  | .keyAlloc ρ => (m.keyAlloc ρ).2
  | .keyProtect a l ρ κ => (m.keyProtect a l ρ κ).2
  | .keyRights κ => (m.keyRights κ).2
  | .keyFree κ => m.keyFree κ
  | .place a => (Guard.place m a).2

/-- `m` comes to `m'` by calls each of which is allowed where it is made,
and by events that place no guard. -/
inductive Path (Allowed : Machine → Act → Prop) (m : Machine) : Machine → Prop
  | refl : Path Allowed m m
  | tell {m' : Machine} (h : Path Allowed m m') {e : Event} (he : e.placed? = none) :
      Path Allowed m (m'.tell e)
  | act {m' : Machine} (h : Path Allowed m m') (c : Act) (hc : Allowed m' c) :
      Path Allowed m (m'.act c)

namespace Path

variable {Allowed Permitted : Machine → Act → Prop} {m m₁ m₂ m₃ m' : Machine}

/-- One path after another is a path. -/
theorem trans (h : Path Allowed m₁ m₂) (h' : Path Allowed m₂ m₃) : Path Allowed m₁ m₃ := by
  induction h' with
  | refl => exact h
  | tell _ he ih => exact ih.tell he
  | act _ c hc ih => exact ih.act c hc

/-- Where more is allowed, what was a path still is. -/
theorem mono (h : Path Allowed m m') (hle : ∀ v c, Allowed v c → Permitted v c) :
    Path Permitted m m' := by
  induction h with
  | refl => exact .refl
  | tell _ he ih => exact ih.tell he
  | act _ c hc ih => exact ih.act c (hle _ c hc)

/-- What every allowed call keeps is kept along a path. -/
theorem keeps {P : Machine → Prop} (h : Path Allowed m m') (hm : P m)
    (htell : ∀ v e, P v → P (v.tell e)) (hact : ∀ v c, Allowed v c → P v → P (v.act c)) :
    P m' := by
  induction h with
  | refl => exact hm
  | tell _ _ ih => exact htell _ _ ih
  | act _ c hc ih => exact hact _ c hc ih

/-- A path is a stretch of calls. -/
theorem calls (h : Path Allowed m m') : m.Calls m' := by
  refine h.keeps .refl (fun v e hv => hv.tell e) fun v c _ hv => ?_
  cases c with
  | map q => exact hv.map q
  | unmap a l => exact hv.unmap a l
  | protect a l ρ => exact hv.protect a l ρ
  | move q => exact hv.move q
  | fill a l byte => exact hv.fill a l byte
  | copy a bytes => exact hv.copy a bytes
  | keyAlloc ρ => exact hv.keyAlloc ρ
  | keyProtect a l ρ κ => exact hv.keyProtect a l ρ κ
  | keyRights κ => exact hv.keyRights κ
  | keyFree κ => exact hv.keyFree κ
  | place a => exact hv.trans (Guard.calls_place v a)

/-- One more call leads to where it leaves the machine. -/
theorem step (h : Path Allowed m m') {c : Act} (hc : Allowed m' c) {m'' : Machine}
    (heq : m'.act c = m'') : Path Allowed m m'' :=
  heq ▸ h.act c hc

/-- A guard may be lifted, where its page may be unmapped. -/
theorem lift (h : Path Allowed m m') {address : Nat}
    (ha : Allowed m' (.unmap address pageSize)) : Path Allowed m (Guard.lift m' address) := by
  unfold Guard.lift
  split <;> rename_i hunmap <;> exact (h.step ha (congrArg Prod.snd hunmap)).tell rfl

/-- The guard below a record may be lifted. -/
theorem removeBelow (h : Path Allowed m m') {r : Record}
    (hr : ∀ g, r.guardBelow = some g → Allowed m' (.unmap g pageSize)) :
    Path Allowed m (Guard.removeBelow m' r).2 := by
  unfold Guard.removeBelow
  split
  · rename_i g hg
    exact h.lift (hr g hg)
  · exact h

/-- So may the guard above it. -/
theorem removeAbove (h : Path Allowed m m') {r : Record}
    (hr : ∀ g, r.guardAbove = some g → Allowed m' (.unmap g pageSize)) :
    Path Allowed m (Guard.removeAbove m' r).2 := by
  unfold Guard.removeAbove
  split
  · rename_i g hg
    exact h.lift (hr g hg)
  · exact h

/-- A guard may be placed below a record. -/
theorem placeBelow (h : Path Allowed m m') (r : Record) (ha : ∀ a, Allowed m' (.place a)) :
    Path Allowed m (Guard.placeBelow m' r).2 := by
  unfold Guard.placeBelow
  split
  · exact h
  · exact h.act (.place _) (ha _)

/-- And above it. -/
theorem placeAbove (h : Path Allowed m m') (r : Record) (ha : ∀ a, Allowed m' (.place a)) :
    Path Allowed m (Guard.placeAbove m' r).2 := by
  unfold Guard.placeAbove
  split
  · exact h
  · exact h.act (.place _) (ha _)

end Path

/-- `m` comes to `m'` by events alone. -/
abbrev Silent (m m' : Machine) : Prop := Path (fun _ _ => False) m m'

/-- What no event changes is as it was. -/
theorem Silent.keeps {α : Type} {m m' : Machine} (h : m.Silent m') {f : Machine → α}
    (hf : ∀ v e, f (v.tell e) = f v) : f m' = f m :=
  Path.keeps h (P := fun v => f v = f m) rfl (fun v e hv => (hf v e).trans hv)
    fun _ _ hc => hc.elim

/-! ## Idle calls -/

end Machine

/-- The call neither maps nor unmaps anything, and gives no key back. -/
def Act.Idle (m : Machine) : Act → Prop
  | .map q => ∃ errno, (m.map q).1 = .error errno
  | .unmap a l => ∃ errno, (m.unmap a l).1 = .error errno
  | .move _ => False
  | .keyFree _ => False
  | .place _ => False
  | .protect _ _ _ => True
  | .fill _ _ _ => True
  | .copy _ _ => True
  | .keyAlloc _ => True
  | .keyProtect _ _ _ _ => True
  | .keyRights _ => True

namespace Machine

variable {m m' : Machine}

/-- A mapping that fails is idle. -/
theorem idle_map {q : MapRequest} {errno : Errno} (h : m.map q = (.error errno, m')) :
    Path Act.Idle m m' := by
  have hidle : (Act.map q).Idle m := ⟨errno, congrArg Prod.fst h⟩
  exact Path.refl.step hidle (congrArg Prod.snd h)

/-- So is an unmapping that fails. -/
theorem idle_unmap {address length : Nat} {errno : Errno}
    (h : m.unmap address length = (.error errno, m')) : Path Act.Idle m m' := by
  have hidle : (Act.unmap address length).Idle m := ⟨errno, congrArg Prod.fst h⟩
  exact Path.refl.step hidle (congrArg Prod.snd h)

/-- So is a change of protection, whatever comes of it. -/
theorem idle_protect {address length : Nat} {rights : Rights} {o : Except Errno Unit}
    (h : m.protect address length rights = (o, m')) : Path Act.Idle m m' :=
  Path.refl.step (c := .protect address length rights) trivial (congrArg Prod.snd h)

/-- A change of protection maps and unmaps nothing. -/
theorem isSome_protect (m : Machine) (address length : Nat) (rights : Rights) (n : Nat) :
    ((m.protect address length rights).2.pageAt n).isSome = (m.pageAt n).isSome := by
  rcases h : m.protect address length rights with ⟨errno | ⟨⟩, m'⟩
  · rw [pageAt_of_space (space_of_protect_error h)]
  · simp only [(pageAt_protect h n).2]
    split
    · exact Option.isSome_map
    · rfl

/-- Nor does tagging. -/
theorem isSome_keyProtect (m : Machine) (address length : Nat) (rights : Rights) (key n : Nat) :
    ((m.keyProtect address length rights key).2.pageAt n).isSome = (m.pageAt n).isSome := by
  rcases h : m.keyProtect address length rights key with ⟨errno | ⟨⟩, m'⟩
  · rw [pageAt_of_space (space_of_keyProtect_error h)]
  · by_cases hlen : 0 < length
    · simp only [(pageAt_keyProtect h hlen n).2]
      split
      · exact Option.isSome_map
      · rfl
    · obtain rfl : length = 0 := by omega
      rw [pageAt_of_space (space_of_keyProtect_empty h)]

/-- Nor does writing bytes. -/
theorem isSome_write {address length : Nat} (source : Nat → UInt8)
    (h : m'.space = m.space.write address length source) (n : Nat) :
    (m'.pageAt n).isSome = (m.pageAt n).isSome := by
  have hsame := congrArg Option.isSome (attributes_write source h n)
  rw [Option.isSome_map, Option.isSome_map] at hsame
  exact hsame

/-- **An idle call leaves mapped what is mapped**, and maps nothing. -/
theorem isSome_act_of_idle {c : Act} (hc : c.Idle m) (n : Nat) :
    ((m.act c).pageAt n).isSome = (m.pageAt n).isSome := by
  cases c with
  | map q =>
    obtain ⟨errno, he⟩ := hc
    rw [act, pageAt_of_space (space_of_map_error (Prod.ext he rfl))]
  | unmap a l =>
    obtain ⟨errno, he⟩ := hc
    rw [act, pageAt_of_space (space_of_unmap_error (Prod.ext he rfl))]
  | protect a l ρ => exact isSome_protect m a l ρ n
  | move q => exact hc.elim
  | fill a l byte => exact isSome_write (fun _ => byte) rfl n
  | copy a bytes => exact isSome_write (fun i => bytes[i]?.getD 0) rfl n
  | keyAlloc ρ => rw [act, pageAt_keyAlloc]
  | keyProtect a l ρ κ => exact isSome_keyProtect m a l ρ κ n
  | keyRights κ =>
    show ((m.keyRights κ).2.pageAt n).isSome = _
    unfold keyRights
    split <;> rfl
  | keyFree κ => exact hc.elim
  | place a => exact hc.elim

/-- **Idle calls leave mapped what is mapped**, and map nothing. -/
theorem Path.isSome_rightsAt (h : Path Act.Idle m m') (n : Nat) :
    (m'.rightsAt n).isSome = (m.rightsAt n).isSome := by
  refine h.keeps (P := fun v => (v.rightsAt n).isSome = (m.rightsAt n).isSome) rfl
    (fun _ _ hv => hv) fun v c hc hv => ?_
  have hact := isSome_act_of_idle hc n
  rw [rightsAt_eq, rightsAt_eq, Option.isSome_map, Option.isSome_map] at hv ⊢
  exact hact.trans hv

end Machine

end PageWarden
