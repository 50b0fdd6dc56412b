import ProofSystems.RustVec
import ProofSystems.Trace.Basic
import ProofSystems.Trace.Padding
import ProofSystems.Trace.Decomposed
import ProofSystems.Trace.Edit
import ProofSystems.Trace.Invariant
import ProofSystems.Trace.SelectorColumns
import ProofSystems.Trace.PadWitnesses
import ProofSystems.Trace.Reset
import ProofSystems.Trace.Rows
import ProofSystems.Trace.Folding
import ProofSystems.Sponge
import ProofSystems.Saffron.Combine
import ProofSystems.Saffron.StorageProof
