import Mscclpp.Basic
import Mscclpp.Communicator
import Mscclpp.HostHash
import Mscclpp.Registry
import Mscclpp.Bootstrap
import Mscclpp.SetupRounds
import Mscclpp.Executor.Plan
import Mscclpp.Executor.State
import Mscclpp.Executor.Setup
import Mscclpp.Executor.Frame
import Mscclpp.Executor.Spec
import Mscclpp.Executor.Channels
import Mscclpp.Executor.Transport
import Mscclpp.Executor.Launch
import Mscclpp.Executor.Cache
import Mscclpp.Executor.ColdRounds
import Mscclpp.Executor.ColdRun
import Mscclpp.Executor.Handles
import Mscclpp.Executor.Execute
import Mscclpp.AllgatherTest
import Mscclpp.AllgatherRun
import Mscclpp.AllgatherProgress
import Mscclpp.AllgatherDelivery
import Mscclpp.AllgatherResult
import Mscclpp.AllgatherOrder
