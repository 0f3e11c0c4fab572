import OpenUI.Proofs.Agent.Esim.Worker
import OpenUI.Proofs.Agent.Esim.Resolution
import OpenUI.Proofs.Agent.Esim.Outcomes
import OpenUI.Proofs.Agent.Esim.Journal
import OpenUI.Proofs.Agent.Esim.Persistence
import OpenUI.Proofs.Agent.Esim.Revision
import OpenUI.Proofs.Helper.GuardSafety
import OpenUI.Proofs.Helper.GuardTransparency
import OpenUI.Proofs.Agent.Esim.Requests
import OpenUI.Proofs.Helper.Agreement
import OpenUI.Proofs.Agent.Esim.Disclosure
import OpenUI.Proofs.Agent.Lan
import OpenUI.Proofs.Agent.LanRetry
import OpenUI.Proofs.Agent.ChargePolicy
import OpenUI.Proofs.Agent.UciTransaction
import OpenUI.Proofs.Agent.Wifi
import OpenUI.Proofs.Agent.Logins
import OpenUI.Proofs.Agent.Sessions
import OpenUI.Proofs.Agent.Dashboard
import OpenUI.Proofs.Helper.Channels
import OpenUI.Proofs.Helper.Endings
import OpenUI.Proofs.Helper.Closing
import OpenUI.Proofs.Helper.Framing
import OpenUI.Proofs.Helper.Answers
import OpenUI.Proofs.Euicc.Der
import OpenUI.Proofs.Euicc.Segments
import OpenUI.Proofs.Euicc.Iccid
import OpenUI.Proofs.Euicc.Base64
import OpenUI.Shell.Signals
import OpenUI.Proofs.Deploy.Paths
import OpenUI.Proofs.Deploy.Snapshot
import OpenUI.Proofs.Deploy.Restore
import OpenUI.Proofs.WebApp.Draft
import OpenUI.Proofs.WebApp.WifiDraft
import OpenUI.Proofs.WebApp.PollScheduler
import OpenUI.Proofs.Unlock.RcLocal
import OpenUI.Proofs.Installer.Control
import OpenUI.Proofs.Installer.Commands
import OpenUI.Proofs.Deploy.Invocations
import OpenUI.Proofs.Agent.Esim.Once
import OpenUI.Euicc.Es9p
import OpenUI.Euicc.Es9pGrammar
import OpenUI.Helper.Notify
import OpenUI.Proofs.Euicc.Es9p
import OpenUI.Proofs.Euicc.Es9pRoundTrip
import OpenUI.Proofs.Helper.Receipts
import OpenUI.Proofs.Deploy.Signals
import OpenUI.Agent.Cell
import OpenUI.Agent.CsvUtils
import OpenUI.Agent.Sms
import OpenUI.Calendar
import OpenUI.Proofs.Agent.CsvUtils
import OpenUI.Proofs.Agent.LanSettings
import OpenUI.Proofs.Agent.WifiPlan
import OpenUI.Proofs.Deploy.PowerLoss
import OpenUI.Proofs.WebApp.Bands
import OpenUI.Proofs.WebApp.Sms
import OpenUI.Agent.DiagLog
import OpenUI.Agent.Usb
import OpenUI.Proofs.Agent.DiagLog
import OpenUI.Proofs.Agent.Usb
import OpenUI.Proofs.Agent.UsbRestore
import OpenUI.Proofs.WebApp.Signal
import OpenUI.WebApp.Alerts
import OpenUI.WebApp.Home
import OpenUI.WebApp.WifiStatus
import OpenUI.Proofs.WebApp.Boundary
import OpenUI.Proofs.WebApp.ReadBack
import OpenUI.Proofs.WebApp.WifiValidation
import OpenUI.Csv
import OpenUI.Proofs.Agent.NetworkLogs
import OpenUI.Proofs.Deploy.BootScript
import OpenUI.Proofs.Agent.Daemons
import OpenUI.Proofs.Agent.Apn
import OpenUI.Proofs.Installer.Identity
import OpenUI.Proofs.ProcessRunner.Output
import OpenUI.Proofs.Agent.AtPorts
import OpenUI.Proofs.Agent.Server
import OpenUI.Proofs.Agent.LogSessions
import OpenUI.Proofs.Agent.AtAnswers
import OpenUI.Proofs.Installer.Literals
