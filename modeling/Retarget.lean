import Retarget.ModuleMap.Edit
import Retarget.Session
import Retarget.Proofs.Amendment
import Retarget.Proofs.Run
import Retarget.Proofs.Change
import Retarget.Proofs.History
import Retarget.Proofs.Step
import Retarget.Proofs.Finality
import Retarget.Proofs.Balance
import Retarget.Proofs.Interleaving
import Retarget.Proofs.NormalForm
import Retarget.Proofs.Twice
import Retarget.Proofs.Literal
import Retarget.Proofs.Token
import Retarget.Proofs.MapLanguage
import Retarget.Proofs.OptionsLanguage
import Retarget.Proofs.Conservation
import Retarget.Proofs.Fusion
import Retarget.Proofs.Positions
import Retarget.Proofs.Walk
import Retarget.Proofs.Canonical
import Retarget.Proofs.Layout
import Retarget.Proofs.Shape
import Retarget.Proofs.Lead
import Retarget.Proofs.Chain
import Retarget.Proofs.Account
import Retarget.Proofs.Layers
import Retarget.Proofs.Occurrence
import Retarget.Proofs.Separators
