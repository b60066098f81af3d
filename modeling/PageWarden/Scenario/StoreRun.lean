import PageWarden.Store
/-!
# Scenarios — one store

A store asked one thing after another. A step names a record by the
number of the insertion that put it there, so that it can name one that is
gone: the handle is kept, stale or not.
-/

namespace PageWarden

/-- A step with a store. -/
inductive StoreStep where
  | insert (r : Record)
  | get (nth : Nat)
  | protect (nth : Nat) (rights : Rights)
  | remove (nth : Nat)
  | find (address : Nat)
  | overlapping (start stop size : Nat)
  | guardedWithin (start stop : Nat)
  | clear

/-- What a step with a store answers. -/
inductive StoreAnswer where
  | truth (b : Bool)
  | handle (h : Option Handle)
  | record (r : Option Record)
  | handles (hs : List Handle)
  | records (rs : List Record)

/-- A store with the handles it has issued, in order. -/
structure StoreRun where
  store : Store := .empty
  issued : List Handle := []

namespace StoreRun

/-- The handle that the insertion with the given number answered. -/
def nth (s : StoreRun) (n : Nat) : Option Handle := s.issued[n]?

/-- Does a step, unless it has no answer. -/
def step (s : StoreRun) : StoreStep → Option (StoreAnswer × StoreRun)
  | .insert r =>
    let done := s.store.insert r
    some (.handle (some done.1), { store := done.2, issued := s.issued ++ [done.1] })
  | .get n => some (.record ((s.nth n).bind s.store.get?), s)
  | .protect n rights =>
    match s.nth n with
    | none => some (.truth false, s)
    | some h =>
      some (.truth (s.store.get? h).isSome,
        { s with store := s.store.modify h fun r => r.protect rights })
  | .remove n =>
    match (s.nth n).bind s.store.remove with
    | none => some (.record none, s)
    | some (r, store) => some (.record (some r), { s with store })
  | .find a => some (.handle (s.store.find? a), s)
  | .overlapping start stop size =>
    (s.store.overlapping? start stop size).map fun hs => (.handles hs, s)
  | .guardedWithin start stop => some (.handles (s.store.guardedWithin start stop), s)
  | .clear =>
    let done := s.store.clear
    some (.records done.1, { s with store := done.2 })

/-- Does steps until one has no answer. -/
def run (s : StoreRun) : List StoreStep → List (Option (StoreAnswer × StoreRun))
  | [] => []
  | next :: rest =>
    match s.step next with
    | none => [none]
    | some done => some done :: done.2.run rest

end StoreRun

end PageWarden
