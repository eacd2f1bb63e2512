import ZkevmNode.Lib.BigEndian
import ZkevmNode.Go.Bytes
import ZkevmNode.Go.Strconv
import ZkevmNode.Go.Ethereum
import ZkevmNode.State.Transaction
import ZkevmNode.State.Helper
import ZkevmNode.State.BatchL2Data
import ZkevmNode.Merkletree.Split
import ZkevmNode.Etherman.Events
import ZkevmNode.Go.Sort
import ZkevmNode.Go.Map
import ZkevmNode.Lib.Descending
import ZkevmNode.Lib.Machine
import ZkevmNode.Lib.Loop
import ZkevmNode.Sequencer.EfficiencyList
import ZkevmNode.Sequencer.AddrQueue
import ZkevmNode.Sequencer.Worker
import ZkevmNode.Sequencer.DbManager
import ZkevmNode.Sequencer.ForcedBatches
import ZkevmNode.Aggregator.Proofs
import ZkevmNode.Aggregator.Disjointness
import ZkevmNode.Jsonrpc.Filters
import ZkevmNode.State.Resources
import ZkevmNode.Sequencer.BestFitting
import ZkevmNode.Synchronizer.Reorg
import ZkevmNode.State.EstimateGas
import ZkevmNode.Lib.Chain
import ZkevmNode.Merkletree.Bytecode
import ZkevmNode.Gasprice.LastNBlocks
import ZkevmNode.Encoding.Decode
import ZkevmNode.Jsonrpc.Codec
import ZkevmNode.State.ForkID
import ZkevmNode.Pool.IntrinsicGas
import ZkevmNode.State.Genesis
import ZkevmNode.State.ClosedBatch
import ZkevmNode.Jsonrpc.Types
import ZkevmNode.Lib.Table
import ZkevmNode.Lib.Emit
import ZkevmNode.Ethtxmanager.MonitoredTx
import ZkevmNode.Ethtxmanager.Monitor
import ZkevmNode.Ethtxmanager.Client
import ZkevmNode.Ethtxmanager.Manager
import ZkevmNode.Etherman.Errors
import ZkevmNode.Sequencer.SequenceSender
import ZkevmNode.Lib.Except
import ZkevmNode.State.BatchTable
import ZkevmNode.Synchronizer.TrustedBatch
