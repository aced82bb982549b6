import RSScript.Bytecode.ContainerRoundTrip
import RSScript.Bytecode.GenericInstantiation
import RSScript.Bytecode.Verify.Payload
import RSScript.Mir.Verify.Dominance
import RSScript.Mir.Verify.Lifetimes
import RSScript.Vm.Passes
import RSScript.Vm.Metering
import RSScript.Provider.MainResult
import RSScript.Provider.Registry
import RSScript.Jit.BoundsSoundness
import RSScript.Jit.StepExactness
import RSScript.Semantics.ExhaustivenessSoundness
import RSScript.Semantics.ExhaustivenessTermination
import RSScript.Syntax.AwaitOrder
import RSScript.Syntax.PrefixSurface
import RSScript.Review.LockHashes
import RSScript.Artifact.SemanticDiff
import RSScript.Semantics.CallBinding
import RSScript.Semantics.FreshReturns
import RSScript.Semantics.LocalNames
import RSScript.Semantics.DocumentInput
import RSScript.Vm.Determinism
import RSScript.Vm.ClosureSort
import RSScript.Vm.TextPatch
import RSScript.Vm.PathString
