import EdgePacer.Delivery.OverflowTree
import EdgePacer.FilePipeline.AckAlignment
import EdgePacer.FilePipeline.Ceiling
import EdgePacer.FilePipeline.LineOffsets
import EdgePacer.FilePipeline.Fragments
import EdgePacer.FilePipeline.Loss
import EdgePacer.Streaming.OverflowGate
import EdgePacer.ReplayLoss
import EdgePacer.Journal.Handover
import EdgePacer.Inventory.PackageSync
import EdgePacer.Inventory.Backends
import EdgePacer.Inventory.LaneSync
import EdgePacer.Orchestrator.Reconcile
import EdgePacer.Orchestrator.Adoption
import EdgePacer.L7.Undetected
import EdgePacer.L7.Hierarchy
import EdgePacer.Ebpf.ListenerEvidence
import EdgePacer.Ebpf.ListenerSequences
import EdgePacer.Ebpf.CgroupLookup
import EdgePacer.Ebpf.StreamCapture
import EdgePacer.Ebpf.EventRouting
import EdgePacer.Ebpf.Descriptors
import EdgePacer.Trace.Reconfigure
import EdgePacer.Manager.Tokens
import EdgePacer.Manager.Install
import EdgePacer.L7.Limits
import EdgePacer.L7.Hpack
import EdgePacer.L7.Varint
import EdgePacer.Delivery.Lifetime
import EdgePacer.Discovery.Authorization
