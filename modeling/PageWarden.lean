import PageWarden.Scenario.GuardRun
import PageWarden.Scenario.KeyTrial
import PageWarden.Scenario.ProcessRun
import PageWarden.Scenario.RecordRun
import PageWarden.Scenario.Session
import PageWarden.Scenario.StoreRun
import PageWarden.Store.View
import PageWarden.Proofs.Placement
import PageWarden.Proofs.Memory
import PageWarden.Proofs.Memory.Move
import PageWarden.Proofs.Memory.Transport
import PageWarden.Proofs.Guard
import PageWarden.Proofs.Bookkeeping
import PageWarden.Proofs.Disjoint
import PageWarden.Proofs.Lineage
import PageWarden.Proofs.WriteExec
import PageWarden.Proofs.Invisible
import PageWarden.Proofs.Chart
import PageWarden.Proofs.Sound
import PageWarden.Proofs.Tracking
import PageWarden.Proofs.Backed
import PageWarden.Proofs.Spare
import PageWarden.Proofs.Account.Operation
import PageWarden.Proofs.Key.Operation
import PageWarden.Proofs.Balance.Operation
import PageWarden.Proofs.Forfeit
import PageWarden.Proofs.Guard.Page
import PageWarden.Proofs.Restore
import PageWarden.Proofs.Edge
import PageWarden.Proofs.Confluence
import PageWarden.Proofs.AllOrNothing
import PageWarden.Proofs.Rehome
import PageWarden.Proofs.Unfelt
import PageWarden.Proofs.Memory.Failure
import PageWarden.Proofs.Numeral
import PageWarden.Proofs.Chronicle
import PageWarden.Proofs.Creation
