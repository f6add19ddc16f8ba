import VcmpLua.Lib.Effect
import VcmpLua.Lib.Script
import VcmpLua.Model.Core.Invoker
import VcmpLua.Model.Core.EntityPool
import VcmpLua.Model.Core.EventBus
import VcmpLua.Model.Bindings.Stream
import VcmpLua.Spec.EventDispatch
import VcmpLua.Proofs.EntityLifetimes
import VcmpLua.Proofs.StreamRoundTrip
import VcmpLua.Proofs.EventDispatch
import VcmpLua.Lib.History
import VcmpLua.Model.Bindings.Bind
import VcmpLua.Model.Bindings.StreamMembers
import VcmpLua.Model.Core.Clock
import VcmpLua.Model.Lua.Sql
import VcmpLua.Model.Modules.Http
import VcmpLua.Model.Plugin.Callbacks
import VcmpLua.Model.Plugin.Environment
import VcmpLua.Model.Runtime.Config
import VcmpLua.Proofs.BindHandles
import VcmpLua.Proofs.ConfigBudget
import VcmpLua.Proofs.HttpDelivery
import VcmpLua.Proofs.Plugin.CallbackRules
import VcmpLua.Proofs.Plugin.DeleteCreated
import VcmpLua.Proofs.Plugin.PoolMirror
import VcmpLua.Proofs.Plugin.ReloadRequests
import VcmpLua.Proofs.Plugin.Reloads
import VcmpLua.Proofs.SqlFormat
import VcmpLua.Proofs.StreamSafety
import VcmpLua.Proofs.TimerLifetimes
import VcmpLua.Proofs.TimerRate
import VcmpLua.Lib.Runs
import VcmpLua.Model.Core.Text
import VcmpLua.Model.Plugin.Command
import VcmpLua.Proofs.CommandSplitting
import VcmpLua.Lib.Assoc
import VcmpLua.Model.Modules.HttpHeaders
import VcmpLua.Proofs.HttpHeaders
import VcmpLua.Model.Lua.Tables
import VcmpLua.Model.Bindings.Args
import VcmpLua.Model.Modules.HttpRequest
import VcmpLua.Proofs.HttpRequest
import VcmpLua.Lib.Writes
import VcmpLua.Model.Runtime.ConfigReader
import VcmpLua.Spec.ConfigTable
import VcmpLua.Proofs.ConfigReader
import VcmpLua.Lib.Chain
import VcmpLua.Model.Bindings.Rotation
import VcmpLua.Proofs.RotationDepth
import VcmpLua.Proofs.SqlGrammar
import VcmpLua.Proofs.EventBusInvariant
import VcmpLua.Spec.EntityLives
import VcmpLua.Proofs.EntityValues
import VcmpLua.Proofs.Plugin.Farewells
import VcmpLua.Proofs.Plugin.HandleLives
import VcmpLua.Model.Modules.HttpOptions
import VcmpLua.Spec.Numbers
import VcmpLua.Spec.HttpOptions
import VcmpLua.Proofs.HttpOptions
import VcmpLua.Model.Bindings.ArgReader
