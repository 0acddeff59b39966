import HumanMachine.Program.Basic
import HumanMachine.Program.Plan
import HumanMachine.Program.Interleaving
import HumanMachine.Server.Replacement
import HumanMachine.Server.WellFormed
import HumanMachine.Server.Refinement
import HumanMachine.Server.Concurrency
import HumanMachine.Client.Reporting
import HumanMachine.Client.Deployment
import HumanMachine.Client.Framing
import HumanMachine.Client.Responses
import HumanMachine.Client.Destination
import HumanMachine.Document.Agreement
import HumanMachine.Document.Orders
import HumanMachine.Document.Upload
import HumanMachine.Document.Storage
import HumanMachine.Client.Resending
import HumanMachine.Client.HashCode
import HumanMachine.Client.NetworkRates
import HumanMachine.Client.Sockets
import HumanMachine.Client.Descriptors
import HumanMachine.Client.Retrying
import HumanMachine.Client.Outcomes
import HumanMachine.Client.Transmission
import HumanMachine.Client.UrlParts
import HumanMachine.Client.Ports
import HumanMachine.Client.InterfaceMatching
import HumanMachine.Client.UrlArrays
import HumanMachine.Client.RequestArrays
import HumanMachine.Client.ResponseArrays
import HumanMachine.Client.Docker
import HumanMachine.Client.LinuxCommand
import HumanMachine.Client.Addresses
import HumanMachine.Client.Split
import HumanMachine.Client.Usage
import HumanMachine.Client.OutputLines
import HumanMachine.Client.Interval
import HumanMachine.Client.JsonToMysql
import HumanMachine.Server.ForeignEntries
import HumanMachine.Client.DockerDeploy
import HumanMachine.Server.Resources
import HumanMachine.Client.Process
import HumanMachine.Program.Simulation
import HumanMachine.Document.FleetOrders
import HumanMachine.Document.EndToEnd
import HumanMachine.Client.Main
import HumanMachine.Client.Sampling
import HumanMachine.Client.Streams
import HumanMachine.Document.Tables
import HumanMachine.Document.CompleteNetwork
import HumanMachine.Document.CompleteTables
