import PageWarden.Space.Table
/-!
# The address space — runs of pages

Neighbouring pages that agree in what is looked at form a run. What is
looked at is a parameter: with protection and key the runs are the
mappings, with protection alone the keys do not show.
-/

namespace PageWarden

/-- Neighbouring pages with the same protection and key. -/
structure PageRun where
  /-- The address of the first page. -/
  start : Nat
  count : Nat
  rights : Rights
  key : Option Nat
deriving DecidableEq, Repr

/-- Puts a page before the runs of the pages above it. -/
def PageRun.extend (n : Nat) (attributes : Rights × Option Nat) (runs : List PageRun) :
    List PageRun :=
  let alone : PageRun := ⟨n * pageSize, 1, attributes.1, attributes.2⟩
  match runs with
  | [] => [alone]
  | r :: rest =>
    if r.start = (n + 1) * pageSize ∧ (r.rights, r.key) = attributes then
      { r with start := n * pageSize, count := r.count + 1 } :: rest
    else alone :: r :: rest

/-- The runs of pages that agree in `look`, ascending. -/
def PageTable.runsBy (t : PageTable) (look : Page → Rights × Option Nat) : List PageRun :=
  t.entries.foldr (fun e runs => PageRun.extend e.1 (look e.2) runs) []

/-- The runs of pages with the same protection and key. -/
def PageTable.runs (t : PageTable) : List PageRun := t.runsBy Page.attributes

end PageWarden
