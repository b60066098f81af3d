import PageWarden.Proofs.Run
import PageWarden.Proofs.Steps.Operation
/-!
# Flanks — where the guards of a record lie

The guard below a record lies on the page right below it, and the guard
above on the first page past it. Guards are placed nowhere else, and a
record that gives pages up gives up the guard on that side, so this holds
after every operation under every fault (`flanked_perform`).
-/

namespace PageWarden

variable {start stop : Nat} {keep : Option Handle} {V V' : View} {m m' : Machine}
variable {r s : Record} {h : Handle}

namespace Record

/-- **The guards flank the record**: one page below it, and right behind it. -/
structure Flanked (r : Record) : Prop where
  below : ∀ {g}, r.guardBelow = some g → g + pageSize = r.base
  above : ∀ {g}, r.guardAbove = some g → g = r.stop pageSize

/-- Guards on the flanks begin on a page. -/
theorem Flanked.aligned (hr : r.Flanked) (hbase : Aligned r.base) {g : Nat}
    (hg : r.guardBelow = some g ∨ r.guardAbove = some g) : Aligned g := by
  rcases hg with hg | hg
  · have hbelow := hr.below hg
    simp only [Aligned, pageSize] at *
    omega
  · rw [hr.above hg]
    exact hbase.add_roundUp r.length

/-- A record without guards is flanked by none. -/
theorem flanked_of_bare (hr : r.bare = r) : r.Flanked := by
  rw [← hr]
  exact ⟨fun hg => (nomatch hg), fun hg => nomatch hg⟩

/-- Fewer guards flank as well. -/
theorem Flanked.forgetWithin (hr : r.Flanked) (start stop : Nat) :
    (r.forgetWithin start stop).Flanked := by
  constructor
  · intro g hg
    simp only [Record.forgetWithin] at hg
    split at hg
    · cases hg
    · exact hr.below hg
  · intro g hg
    simp only [Record.forgetWithin] at hg
    split at hg
    · cases hg
    · exact hr.above hg

/-- The upper part ends where the record ended. -/
theorem stop_upper (hr : r.Shaped) (hstop : Aligned stop) (hend : stop < r.stop pageSize) :
    (r.upper stop).stop pageSize = r.stop pageSize := by
  have hbase := hr.1
  simp only [Aligned, upper, Record.stop, span, limit, roundUp, pageSize] at *
  omega

/-- The lower part ends where the range starts. -/
theorem stop_lower (hr : r.Shaped) (ha : Aligned start) (hlt : r.base < start) :
    (r.lower start).stop pageSize = start := by
  have hbase := hr.1
  simp only [Aligned, lower, Record.stop, span, roundUp, pageSize] at *
  omega

/-- The parts of a record keep the guards on their outer sides. -/
theorem Flanked.partOf (hr : r.Flanked) (hshaped : r.Shaped) (hstop : Aligned stop)
    (hs : r.PartOf start stop s) : s.Flanked := by
  rcases hs with ⟨-, rfl⟩ | ⟨hend, rfl⟩
  · exact ⟨hr.below, fun hg => nomatch hg⟩
  · refine ⟨fun hg => (nomatch hg), fun hg => ?_⟩
    rw [stop_upper hshaped hstop hend]
    exact hr.above hg

end Record

namespace Guard

/-- A guard placed below flanks the record. -/
theorem flanked_placeBelow (hr : r.Flanked) (hs : r.Shaped) (m : Machine) :
    (placeBelow m r).1.Flanked := by
  obtain ⟨hbase, -⟩ := hs
  unfold placeBelow
  split
  · exact hr
  · rename_i hopen
    refine ⟨fun {g} hg => ?_, hr.above⟩
    have hg : (place m (pageFloor (r.base - 1) pageSize)).1 = some g := hg
    rcases place_fst m (pageFloor (r.base - 1) pageSize) with hnone | hsome
    · rw [hnone] at hg
      cases hg
    · -- the base is aligned and past the first page, so the page below it starts one page down
      obtain rfl : pageFloor (r.base - 1) pageSize = g := Option.some.inj (hsome.symm.trans hg)
      rw [Bool.or_eq_true, not_or, decide_eq_true_eq] at hopen
      simp only [pageFloor, Aligned, pageSize] at hopen hbase ⊢
      omega

/-- So does one placed above. -/
theorem flanked_placeAbove (hr : r.Flanked) (m : Machine) : (placeAbove m r).1.Flanked := by
  unfold placeAbove
  split
  · exact hr
  · refine ⟨hr.below, fun {g} hg => ?_⟩
    have hg : (place m (r.stop pageSize)).1 = some g := hg
    rcases place_fst m (r.stop pageSize) with hnone | hsome
    · rw [hnone] at hg
      cases hg
    · exact (Option.some.inj (hsome.symm.trans hg)).symm

end Guard

/-! ## All records -/

/-- Every record is well formed and flanked by its guards. -/
def View.Flanked (V : View) : Prop := ∀ k r, V k = some r → r.Shaped ∧ r.Flanked

namespace View.Flanked

/-- A flanked record may be put in. -/
theorem update (hV : V.Flanked) {o : Option Record}
    (ho : ∀ r, o = some r → r.Shaped ∧ r.Flanked) : View.Flanked (Function.update V h o) :=
  View.all_update hV ho

/-- Clearing leaves records flanked. -/
theorem clearing (hV : V.Flanked) (hstop : Aligned stop)
    (hc : Clearing start stop keep V m V' m') : V'.Flanked := by
  refine hc.all ?_ ?_ ?_ ?_ hV
  · exact fun ⟨hshaped, hflanked⟩ => ⟨hshaped, fun hg => (nomatch hg), hflanked.above⟩
  · exact fun ⟨hshaped, hflanked⟩ => ⟨hshaped, hflanked.below, fun hg => nomatch hg⟩
  · exact fun ⟨hshaped, hflanked⟩ => ⟨hshaped, hflanked.forgetWithin _ _⟩
  · exact fun hshaped _ hpart ⟨_, hflanked⟩ =>
      ⟨hpart.shaped hshaped hstop, hflanked.partOf hshaped hstop hpart⟩

/-- Guards are placed on the flanks. -/
theorem guarding {asked : Bool} (hV : V.Flanked) (hg : Guarding asked V m V' m') :
    V'.Flanked := by
  induction hg with
  | refl => exact hV
  | tell _ _ ih => exact ih
  | @placeBelow _ m' _ _ _ r hr ih =>
    obtain ⟨hshaped, hflanked⟩ := ih _ _ hr
    refine ih.update ?_
    rintro s ⟨⟩
    exact ⟨Record.shaped_congr hshaped (Guard.bare_placeBelow m' r),
      Guard.flanked_placeBelow hflanked hshaped m'⟩
  | @placeAbove _ m' _ _ _ r hr ih =>
    obtain ⟨hshaped, hflanked⟩ := ih _ _ hr
    refine ih.update ?_
    rintro s ⟨⟩
    exact ⟨Record.shaped_congr hshaped (Guard.bare_placeAbove m' r),
      Guard.flanked_placeAbove hflanked m'⟩

end View.Flanked

/-- **Being flanked outlasts every step.** -/
theorem lasting_flanked : Lasting (fun _ => True) fun V => V.Flanked where
  clear := fun hstop hc hV => hV.clearing hstop hc
  guard := fun _ hg hV => hV.guarding hg
  put := fun _ hshaped hbare hV => hV.update fun _ hs =>
    Option.some.inj hs ▸ ⟨hshaped, Record.flanked_of_bare hbare⟩
  note := by
    intro V h r ρ hr hV
    obtain ⟨hshaped, hflanked⟩ := hV h r hr
    refine hV.update ?_
    rintro s ⟨⟩
    exact ⟨hshaped, hflanked.below, hflanked.above⟩
  drop := fun _ hV => hV.update fun _ hs => nomatch hs
  nothing := fun _ _ hr => nomatch hr

namespace Warden

variable {w : Warden}

/-- **Guards flank their records after every operation.** -/
theorem flanked_perform (hs : w.store.Shaped) (hw : View.Flanked w.store.get?) (op : Operation) :
    View.Flanked (w.perform op).2.store.get? :=
  lasting_flanked.perform hs hw trivial (fun _ => trivial) op

/-- **Guards flank their records over every run**, whatever fails. -/
theorem flanked_run (hempty : w.store = .empty) (ops : List Operation) :
    View.Flanked (w.run ops).store.get? := by
  have hkept := run_keeps (P := fun v => v.store.Shaped ∧ View.Flanked v.store.get?)
    (fun v op hv => ⟨shaped_perform hv.1 op, flanked_perform hv.1 hv.2 op⟩)
    ⟨shaped_of_empty hempty, fun k r hr => nomatch (get?_of_empty hempty k).symm.trans hr⟩ ops
  exact hkept.2

end Warden

end PageWarden
