import CallRouting.Log.Message
import CallRouting.Main
import CallRouting.Proofs.Compiled
import CallRouting.Proofs.Memory
import CallRouting.Proofs.Opening
import CallRouting.Service.Basic
import CallRouting.Proofs.Fitting
import CallRouting.Proofs.Captures
import CallRouting.Proofs.Decision
import CallRouting.Proofs.Loading
import CallRouting.Proofs.Routing
import CallRouting.Proofs.Extent
import CallRouting.Proofs.FirstFault
import CallRouting.Proofs.MaximalRuns
import CallRouting.Proofs.Unparsing
import CallRouting.Proofs.Alternation
import CallRouting.Proofs.Recency
import CallRouting.Proofs.Dialling
import CallRouting.Proofs.Reformatting
import CallRouting.Proofs.Surfaces
import CallRouting.Proofs.Foreign
import CallRouting.Proofs.Outcomes
import CallRouting.Proofs.AreaCodes
import CallRouting.Proofs.Stems
import CallRouting.Proofs.Checking
import CallRouting.Proofs.Rendering
import CallRouting.Proofs.Keeping
import CallRouting.Proofs.Legibility
import CallRouting.Proofs.National
import CallRouting.Proofs.Forgetting
import CallRouting.Proofs.LoggedRuns
