import PageWarden.Proofs.Run
import PageWarden.Proofs.Steps.Operation
/-!
# Unguarded records — what is simpler without guards

Where the configuration asks for no guards no record ever gets one
(`unguarded_run`). Guarding does nothing then, and there is no guard field
that could be wrong.
-/

namespace PageWarden

variable {V V' : View} {m m' : Machine} {start stop : Nat} {keep : Option Handle}

/-- No record has a guard. -/
def View.Unguarded (V : View) : Prop := ∀ k r, V k = some r → r.bare = r

namespace View

variable {h : Handle} {r : Record}

/-- A record without guards may be put in. -/
theorem Unguarded.update (hV : V.Unguarded) {o : Option Record}
    (ho : ∀ r, o = some r → r.bare = r) : View.Unguarded (Function.update V h o) :=
  all_update hV ho

/-- A part of a record without guards has none. -/
theorem bare_of_partOf {s : Record} (hs : r.PartOf start stop s) (hr : r.bare = r) :
    s.bare = s := by
  rw [← hr] at hs
  rcases hs with ⟨-, rfl⟩ | ⟨-, rfl⟩ <;> rfl

/-- Clearing places no guard. -/
theorem Unguarded.clearing (hV : V.Unguarded) (hc : Clearing start stop keep V m V' m') :
    V'.Unguarded := by
  refine hc.all ?_ ?_ ?_ (fun _ _ hpart => bare_of_partOf hpart) hV <;>
    intro r hbare <;>
    rw [← hbare] <;>
    rfl

end View

namespace Warden

variable {w : Warden} {h : Handle} {r : Record}

/-- Where no record has a guard, there is none to put back after a move. -/
theorem hasGuards_of_unguarded (hw : View.Unguarded w.store.get?) (address : Nat) :
    (w.hasBelow address || w.hasAbove address) = false := by
  have hnone : ∀ guard : Record → Option Nat, (∀ r : Record, r.bare = r → guard r = none) →
      (w.lookup address).any (fun r => (guard r).isSome) = false := by
    intro guard hguard
    unfold lookup Store.lookup
    cases w.store.find? address with
    | none => rfl
    | some h =>
      cases hr : w.store.get? h with
      | none => rw [Option.bind_some, hr, Option.any_none]
      | some r => rw [Option.bind_some, hr, Option.any_some, hguard r (hw h r hr), Option.isSome_none]
  have hbelow : w.hasBelow address = false := by
    refine hnone (·.guardBelow) fun r hr => ?_
    rw [← hr]
    rfl
  have habove : w.hasAbove address = false := by
    refine hnone (·.guardAbove) fun r hr => ?_
    rw [← hr]
    rfl
  rw [hbelow, habove]
  rfl

/-- **Having no guards outlasts every step**, where none are asked for. -/
theorem lasting_unguarded : Lasting (· = false) View.Unguarded where
  clear := fun _ hc hV => hV.clearing hc
  guard := by
    rintro asked V V' m m' rfl hg hV
    rw [hg.of_not_asked.1]
    exact hV
  put := fun _ _ hbare hV => hV.update fun _ hs => Option.some.inj hs ▸ hbare
  note := by
    intro V h r ρ hr hV
    have hbare := hV h r hr
    refine hV.update ?_
    rintro s ⟨⟩
    rw [← hbare]
    rfl
  drop := fun _ hV => hV.update fun _ hs => nomatch hs
  nothing := fun _ _ hr => nomatch hr

/-- **Where no guards are asked for no record gets one.** -/
theorem unguarded_perform (hs : w.store.Shaped) (hw : View.Unguarded w.store.get?)
    (hoff : w.config.guardPagesActive = false) (op : Operation) :
    View.Unguarded (w.perform op).2.store.get? :=
  lasting_unguarded.perform hs hw hoff (hasGuards_of_unguarded hw) op

/-- **Where no guards are asked for no record has one at any time.** -/
theorem unguarded_run (hempty : w.store = .empty) (hoff : w.config.guardPagesActive = false)
    (ops : List Operation) : View.Unguarded (w.run ops).store.get? := by
  have hkept : (w.run ops).store.Shaped ∧ View.Unguarded (w.run ops).store.get? ∧
      (w.run ops).config = w.config := by
    refine run_keeps (P := fun v => v.store.Shaped ∧ View.Unguarded v.store.get? ∧
      v.config = w.config) (fun v op ⟨hs, hv, hconfig⟩ => ?_)
      ⟨shaped_of_empty hempty, fun k r hr => ?_, rfl⟩ ops
    · refine ⟨shaped_perform hs op, unguarded_perform hs hv ?_ op, ?_⟩
      · rw [hconfig]
        exact hoff
      · rw [config_perform, hconfig]
    · rw [get?_of_empty hempty k] at hr
      cases hr
  exact hkept.2.1

end Warden

end PageWarden
