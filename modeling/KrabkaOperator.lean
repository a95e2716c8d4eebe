import KrabkaOperator.Base.Prog
import KrabkaOperator.Base.History
import KrabkaOperator.Base.Text
import KrabkaOperator.Base.Decimal
import KrabkaOperator.Kube.Fields
import KrabkaOperator.Kube.Objects
import KrabkaOperator.ClusterCa.Bundle
import KrabkaOperator.ClusterCa.Library
import KrabkaOperator.Crd.Kafka
import KrabkaOperator.Crd.NodePool
import KrabkaOperator.Crd.User
import KrabkaOperator.Operator.World
import KrabkaOperator.Access.AclSync
import KrabkaOperator.Access.Broker
import KrabkaOperator.Access.Continuity
import KrabkaOperator.Access.Cycle
import KrabkaOperator.Access.Deletion
import KrabkaOperator.Access.Effects
import KrabkaOperator.Access.Faults
import KrabkaOperator.Access.Leftover
import KrabkaOperator.Access.LoginRuns
import KrabkaOperator.Access.Logins
import KrabkaOperator.Access.OneToken
import KrabkaOperator.Access.Reconcile
import KrabkaOperator.Access.Requests
import KrabkaOperator.Access.Spec
import KrabkaOperator.Access.Token
import KrabkaOperator.Access.TokenRequests
import KrabkaOperator.Admin.Client
import KrabkaOperator.Base.Canonical
import KrabkaOperator.Base.Checks
import KrabkaOperator.Base.Digest
import KrabkaOperator.Base.Interleave
import KrabkaOperator.Base.Intervals
import KrabkaOperator.Base.IpAddr
import KrabkaOperator.Base.IpParse
import KrabkaOperator.Base.IpText
import KrabkaOperator.Base.LastWins
import KrabkaOperator.Base.Loop
import KrabkaOperator.Base.MapDiff
import KrabkaOperator.Base.ProtoJson
import KrabkaOperator.Base.Separated
import KrabkaOperator.Base.Tracked
import KrabkaOperator.Base.Url
import KrabkaOperator.Base.Within
import KrabkaOperator.Bootstrap.First
import KrabkaOperator.Bootstrap.Pass
import KrabkaOperator.Bootstrap.Secret
import KrabkaOperator.Cluster.Activity
import KrabkaOperator.Cluster.Adopt
import KrabkaOperator.Cluster.Adoption
import KrabkaOperator.Cluster.Advance
import KrabkaOperator.Cluster.AdvertisedSans
import KrabkaOperator.Cluster.Attribution
import KrabkaOperator.Cluster.Byo
import KrabkaOperator.Cluster.ConfigMap
import KrabkaOperator.Cluster.Convergence
import KrabkaOperator.Cluster.FailedInputs
import KrabkaOperator.Cluster.Frames
import KrabkaOperator.Cluster.Inventory
import KrabkaOperator.Cluster.ListenerTls
import KrabkaOperator.Cluster.Pass
import KrabkaOperator.Cluster.Promotion
import KrabkaOperator.Cluster.Reconcile
import KrabkaOperator.Cluster.Rollout
import KrabkaOperator.Cluster.Routing
import KrabkaOperator.Cluster.Run
import KrabkaOperator.Cluster.Triggers
import KrabkaOperator.Cluster.TrustRoll
import KrabkaOperator.ClusterCa.FixedPoint
import KrabkaOperator.ClusterCa.Frame
import KrabkaOperator.ClusterCa.Generations
import KrabkaOperator.ClusterCa.Keystore
import KrabkaOperator.ClusterCa.KeystoreConvergence
import KrabkaOperator.ClusterCa.KeystoreHealing
import KrabkaOperator.ClusterCa.LeafNames
import KrabkaOperator.ClusterCa.Leafs
import KrabkaOperator.ClusterCa.Machine
import KrabkaOperator.ClusterCa.Reconcile
import KrabkaOperator.ClusterCa.Refinement
import KrabkaOperator.ClusterCa.Renewal
import KrabkaOperator.ClusterCa.Requests
import KrabkaOperator.ClusterCa.Resplit
import KrabkaOperator.ClusterCa.Rotation
import KrabkaOperator.ClusterCa.SanDigest
import KrabkaOperator.ClusterCa.SanText
import KrabkaOperator.ClusterCa.Served
import KrabkaOperator.ClusterCa.Signing
import KrabkaOperator.ClusterCa.Store
import KrabkaOperator.Config.Hash
import KrabkaOperator.Config.Logging
import KrabkaOperator.Config.Unambiguous
import KrabkaOperator.Connector.Inputs
import KrabkaOperator.Context.AdminClients
import KrabkaOperator.Context.OwnIdentity
import KrabkaOperator.Crd.BrokerTuning
import KrabkaOperator.Crd.Listener
import KrabkaOperator.Crd.TieredStorage
import KrabkaOperator.Gateway.Serving
import KrabkaOperator.Gateway.ServingTrust
import KrabkaOperator.Gateway.Webhooks
import KrabkaOperator.Kube.ClusterDns
import KrabkaOperator.Kube.ExactQuantity
import KrabkaOperator.Kube.Expansion
import KrabkaOperator.Kube.Ingress
import KrabkaOperator.Kube.Network
import KrabkaOperator.Kube.Quantity
import KrabkaOperator.Kube.QuantityRange
import KrabkaOperator.Kube.Service
import KrabkaOperator.Leader.Exclusion
import KrabkaOperator.Leader.Handover
import KrabkaOperator.Leader.Lease
import KrabkaOperator.Leader.Process
import KrabkaOperator.Leader.Record
import KrabkaOperator.Leader.RollingUpdate
import KrabkaOperator.Listeners.Addresses
import KrabkaOperator.Listeners.Advertised
import KrabkaOperator.Listeners.BrokerToml
import KrabkaOperator.Listeners.Distinct
import KrabkaOperator.Listeners.Liveness
import KrabkaOperator.Listeners.Names
import KrabkaOperator.Listeners.Ports
import KrabkaOperator.Listeners.Search
import KrabkaOperator.Listeners.Services
import KrabkaOperator.Listeners.Validation
import KrabkaOperator.Network.Cleanup
import KrabkaOperator.Network.Policy
import KrabkaOperator.Network.Reachability
import KrabkaOperator.Network.Reconcile
import KrabkaOperator.NodePool.Deletion
import KrabkaOperator.NodePool.Drain
import KrabkaOperator.NodePool.Gates
import KrabkaOperator.NodePool.Guards
import KrabkaOperator.NodePool.Identity
import KrabkaOperator.NodePool.Leftover
import KrabkaOperator.NodePool.Reconcile
import KrabkaOperator.NodePool.Replication
import KrabkaOperator.NodePool.RoundTrip
import KrabkaOperator.NodePool.Rules
import KrabkaOperator.NodePool.Run
import KrabkaOperator.NodePool.Shrink
import KrabkaOperator.NodePool.Status
import KrabkaOperator.NodePool.Storage
import KrabkaOperator.NodePool.StorageChange
import KrabkaOperator.NodePool.StorageGrowth
import KrabkaOperator.NodePool.Topology
import KrabkaOperator.NodePool.Unregister
import KrabkaOperator.NodePool.Voters
import KrabkaOperator.NodePool.World
import KrabkaOperator.Operator.Finalizers
import KrabkaOperator.Rebalance.Approval
import KrabkaOperator.Rebalance.Endpoint
import KrabkaOperator.Rebalance.Guard
import KrabkaOperator.Rebalance.Lifecycle
import KrabkaOperator.Rebalance.Machine
import KrabkaOperator.Rebalance.Planning
import KrabkaOperator.Rebalance.Sessions
import KrabkaOperator.Rebalance.Sight
import KrabkaOperator.Rebalance.Wire
import KrabkaOperator.Registry.Advertised
import KrabkaOperator.Registry.FixedPoint
import KrabkaOperator.Registry.Migration
import KrabkaOperator.Registry.Readiness
import KrabkaOperator.Registry.Reconcile
import KrabkaOperator.Registry.Render
import KrabkaOperator.Registry.Settings
import KrabkaOperator.Registry.Spec
import KrabkaOperator.Topic.Convergence
import KrabkaOperator.Topic.Deletion
import KrabkaOperator.Topic.Ownership
import KrabkaOperator.Topic.Reconcile
import KrabkaOperator.User.ManagedSecrets
import KrabkaOperator.User.Pass
import KrabkaOperator.User.Reconcile
import KrabkaOperator.User.Requests
import KrabkaOperator.User.Tls
import KrabkaOperator.Version.Evaluate
import KrabkaOperator.Version.Finalize
import KrabkaOperator.Version.Grammar
import KrabkaOperator.Version.Guards
import KrabkaOperator.Version.Pass
import KrabkaOperator.Version.Roll
