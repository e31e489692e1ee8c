import DPsim.SimulationEvents
import DPsim.EventConcurrency
import DPsim.CouplingDeadlock
import DPsim.PythonWaiting
import DPsim.PythonRefusals
import DPsim.PythonStopping
import DPsim.PythonOverruns
import DPsim.PythonEvents
import DPsim.PythonStepping
import DPsim.PythonRealTime
import DPsim.EventDelivery
import DPsim.RunLoops
import DPsim.Cleanup
import DPsim.Downsampling
import DPsim.TimerTicks
import DPsim.DataLogger
import DPsim.InterfaceReads
import DPsim.InterfaceRoundTrip
import DPsim.SampleOwnership
import DPsim.MNASwitching
import DPsim.MNAShapes
import DPsim.MNAStatus
import DPsim.SteadyState
import DPsim.ComponentRuns
import DPsim.DAEState
import DPsim.DAENumbering
import DPsim.SolverDomains
import DPsim.ExportLayout
import DPsim.ScheduledEvents
import DPsim.KeywordArguments
import DPsim.EventDispatch
import DPsim.EventOrder
import DPsim.TopologyReferences
import DPsim.CommandLineWords
import DPsim.CouplingOrder
import DPsim.CouplingPorts
import DPsim.NetworkEquations
import DPsim.PythonLifeCycle
import DPsim.PythonSimulate
import DPsim.NodeLog
