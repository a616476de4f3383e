import Rtype.Foundations.ByteOrder
import Rtype.Foundations.OrderedMap
import Rtype.Foundations.SlidingWindow
import Rtype.Foundations.Resequencer
import Rtype.Foundations.Transition
import Rtype.Foundations.DenseIndex
import Rtype.Foundations.Blocks
import Rtype.Foundations.Retries
import Rtype.Foundations.WhileLoop
import Rtype.Foundations.ReverseScan
import Rtype.Foundations.Boxes
import Rtype.Foundations.WeightedChoice
import Rtype.Rtecs.SparseSet
import Rtype.Rtecs.DynamicBitSet
import Rtype.Rtecs.BitSetWire
import Rtype.Rtecs.BitSetOperators
import Rtype.Rtecs.ECS
import Rtype.Rtecs.StoreInvariant
import Rtype.Rtecs.SparseGroup
import Rtype.Rtecs.GroupContents
import Rtype.Rtecs.SparseView
import Rtype.Rtecs.Instances
import Rtype.Rtecs.Registration
import Rtype.Rtecs.Writing
import Rtype.Rtecs.Table
import Rtype.Rtecs.Rewriting
import Rtype.Rtnt.Packet
import Rtype.Rtnt.Serialization
import Rtype.Rtnt.Reading
import Rtype.Rtnt.Header
import Rtype.Rtnt.HeaderGrammar
import Rtype.Rtnt.Session
import Rtype.Rtnt.LengthFields
import Rtype.Rtnt.AckWindow
import Rtype.Rtnt.Endpoint
import Rtype.Rtnt.Sending
import Rtype.Rtnt.Acknowledging
import Rtype.Rtnt.Receiving
import Rtype.Rtnt.Fidelity
import Rtype.Rtnt.Link
import Rtype.Rtnt.Delivery
import Rtype.Rtnt.Replay
import Rtype.Rtnt.ExplicitAcks
import Rtype.Rtnt.RichAcks
import Rtype.Rtnt.PacketHistory
import Rtype.Rtnt.WrapAround
import Rtype.Rtnt.AckThreshold
import Rtype.Rtnt.SessionHeap
import Rtype.Rtnt.Client
import Rtype.Rtnt.Server
import Rtype.Rtnt.Disconnection
import Rtype.Rtnt.SessionCalls
import Rtype.Rtnt.Waiting
import Rtype.Rtnt.Retransmission
import Rtype.Rtnt.Metrics
import Rtype.Rtnt.Dispatcher
import Rtype.Rtnt.Passing
import Rtype.Rtnt.Connection
import Rtype.Rtnt.Reconnection
import Rtype.Rteng.EntityContent
import Rtype.Rteng.EntityInfos
import Rtype.Rteng.GameEngine
import Rtype.Rteng.Behaviours
import Rtype.Common.Factory
import Rtype.Common.Messages
import Rtype.Server.BroadcastDeadEntities
import Rtype.Common.Components
import Rtype.Server.Lobby
import Rtype.Server.LobbySteps
import Rtype.Server.LobbyPackets
import Rtype.Server.LobbyManager
import Rtype.Server.LobbyRequests
import Rtype.Server.LevelDirector
import Rtype.Server.Waves
import Rtype.Server.WaveLives
import Rtype.Server.WavePicking
import Rtype.Server.WaveConfig
import Rtype.Server.Restart
import Rtype.Server.ApplyMovement
import Rtype.Server.PlayerCollisions
import Rtype.Server.PlayerLookup
import Rtype.Server.TaskDiscipline
import Rtype.Client.Handlers
import Rtype.Client.Bindings
import Rtype.Client.World
import Rtype.Client.BindingMap
import Rtype.Client.Joining
import Rtype.Foundations.Registers
import Rtype.Foundations.Machines
import Rtype.Foundations.Approach
import Rtype.Server.Membership
import Rtype.Server.GameStates
import Rtype.Client.GameStates
import Rtype.Client.Wire
import Rtype.Client.Interpolation
import Rtype.Client.Keyboard
import Rtype.Client.Shooting
import Rtype.Server.EntityMovements
import Rtype.Server.EnemyMovement
import Rtype.Server.UpdatedMovements
import Rtype.Server.Clock
import Rtype.Server.Budget
import Rtype.Cli.Parser
import Rtype.Client.Animations
import Rtype.Rteng.Lifecycle
import Rtype.Client.Menus
