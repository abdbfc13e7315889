import VmOperator.Bench.Session
import VmOperator.Journal
import VmOperator.Main
import VmOperator.Proofs.Run
import VmOperator.Proofs.Reconcile.Effects
import VmOperator.Proofs.Reconcile.Imaging
import VmOperator.Proofs.Reconcile.Requests
import VmOperator.Proofs.Reconcile.Wishes
import VmOperator.Proofs.Checkout
import VmOperator.Proofs.Coherence
import VmOperator.Proofs.DiskPath
import VmOperator.Proofs.Losses
import VmOperator.Proofs.ImageProgress
import VmOperator.Proofs.Provisioning
import VmOperator.Proofs.VmIdentity
import VmOperator.Proofs.Rehearsal
import VmOperator.Proofs.Release
import VmOperator.Proofs.SharedStorage
import VmOperator.Proofs.Containment
import VmOperator.Proofs.RecordedTransfer
import VmOperator.Proofs.Reconcile.Restating
import VmOperator.Proofs.Image.File
import VmOperator.Proofs.Store.Yields
import VmOperator.Proofs.FinalizerGate
import VmOperator.Proofs.Reconcile.Looking
import VmOperator.Proofs.Conflicts
import VmOperator.Proofs.Resource.Documented
import VmOperator.Proofs.Appliance.Documented
import VmOperator.Proofs.Reporting
import VmOperator.Proofs.Reconcile.Leaving
import VmOperator.Proofs.Quiescence
import VmOperator.Proofs.AtomicStep
import VmOperator.Proofs.StopPolling
import VmOperator.Proofs.Backoff
import VmOperator.Proofs.Readiness
import VmOperator.Proofs.BootstrapData
import VmOperator.Proofs.ProgressCodec
import VmOperator.Proofs.Persistence
import VmOperator.Proofs.Text.Lower
import VmOperator.Proofs.DiskName
import VmOperator.Proofs.CompressedName
import VmOperator.Proofs.PathEncoding
import VmOperator.Proofs.ConditionHistory
import VmOperator.Proofs.ClusterProvisioning
