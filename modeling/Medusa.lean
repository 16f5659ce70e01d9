import Medusa.Acknowledge
import Medusa.Notify
import Medusa.CheckAsset
import Medusa.IssueRun
import Medusa.IssueInvariants
import Medusa.CheckAll
import Medusa.CheckIsolation
import Medusa.Derived
import Medusa.Mapping
import Medusa.MapAlgorithms
import Medusa.AssetRequests
import Medusa.MappingInvariant
import Medusa.EditPlan
import Medusa.LogQueries
import Medusa.LogIsolation
import Medusa.Itp.Generate
import Medusa.Itp.CheckRequests
import Medusa.Itp.ItcRequests
import Medusa.Itp.Completion
import Medusa.Itp.CheckNumbers
import Medusa.Itp.GroupNumbers
import Medusa.Itp.Integrity
import Medusa.Itp.Scope
import Medusa.Ticket.Requests
import Medusa.Ticket.Effects
import Medusa.Ticket.Status
import Medusa.Ticket.Subscriptions
import Medusa.Ticket.Actions
import Medusa.Ticket.Deletion
import Medusa.Itp.Instantiation
import Medusa.Itp.Renumbering
import Medusa.Itp.Ticks
import Medusa.AcknowledgeScope
import Medusa.Credentials
import Medusa.Itp.Projects
import Medusa.Files
import Medusa.Dashboard
import Medusa.Itp.Reports
import Medusa.Itp.CompletionRecord
import Medusa.Itp.ItcStatus
import Medusa.Itp.ItpPage
import Medusa.Itp.CompletionDate
import Medusa.Itp.Percentage
import Medusa.AddPlan
import Medusa.Exclusions
import Medusa.EditChoice
import Medusa.EditPage
import Medusa.Atomicity
import Medusa.Algorithms.Data
import Medusa.AssetHealth
import Medusa.Algorithms.DayChecks
import Medusa.Algorithms.RunningTime
import Medusa.Algorithms.PidControl
import Medusa.Ticket.History
import Medusa.Ticket.Filter
import Medusa.AcknowledgeSplit
import Medusa.Separated
import Medusa.SiteConfig
import Medusa.Base64
import Medusa.Registration
import Medusa.Cmms
import Medusa.Itp.ReportProgress
import Medusa.Ticket.Attachments
import Medusa.Contents
import Medusa.SaveOrder
import Medusa.CheckOrder
import Medusa.IssueTracker
import Medusa.IssueHistory
import Medusa.IssueHistory
import Medusa.DataAgent
import Medusa.DataAgent
import Medusa.ConfigFiles
import Medusa.ConfigFiles
import Medusa.SiteReports
import Medusa.Views
import Medusa.Views
import Medusa.Board
import Medusa.Ticket.Mail
import Medusa.AssetUpload
import Medusa.Children
import Medusa.Itp.Plan
import Medusa.Interned
import Medusa.Itp.Checklists
import Medusa.Ict
import Medusa.Inventory
import Medusa.Ticket.Filing
import Medusa.Browsing
