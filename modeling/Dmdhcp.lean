import Dmdhcp.Mirror
import Dmdhcp.DefaultRoute
import Dmdhcp.Probed
import Dmdhcp.Deadlines
import Dmdhcp.StateMachine
import Dmdhcp.Embedding
import Dmdhcp.LostRace
import Dmdhcp.XidRace
import Dmdhcp.Teardown
import Dmdhcp.Lifetime
import Dmdhcp.Timers
import Dmdhcp.Callbacks
import Dmdhcp.CleanExit
import Dmdhcp.Conflicts
import Dmdhcp.Provider
import Dmdhcp.Advertised
import Dmdhcp.Locks
import Dmdhcp.TracedAlone
import Dmdhcp.TableRace
import Dmdhcp.OptionsGrammar
import Dmdhcp.Terms
import Dmdhcp.BoundReport
import Dmdhcp.Release
import Dmdhcp.DatagramReads
import Dmdhcp.Schedule
import Dmdhcp.Lib.Alloc
import Dmdhcp.Memory
import Dmdhcp.Isolation
import Dmdhcp.Ownership
import Dmdhcp.Projection
import Dmdhcp.ModuleMemory
import Dmdhcp.Network
import Dmdhcp.Acquisition
import Dmdhcp.Silence
import Dmdhcp.Requests
