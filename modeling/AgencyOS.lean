import AgencyOS.Accounts.GuessBound
import AgencyOS.Accounts.LatestToken
import AgencyOS.Accounts.ResendCooldown
import AgencyOS.Accounts.Revocation
import AgencyOS.Agents.Refinement
import AgencyOS.Automation.AttemptBudget
import AgencyOS.Automation.CronAgreement
import AgencyOS.Automation.Fencing
import AgencyOS.Automation.Gating
import AgencyOS.Automation.LostRaces
import AgencyOS.Automation.OperationalMonitoring
import AgencyOS.Automation.OutcomeFields
import AgencyOS.Automation.PauseAudit
import AgencyOS.Automation.PreviousFire
import AgencyOS.Automation.ProposalOutcome
import AgencyOS.Automation.RetentionWorker
import AgencyOS.Automation.ScheduleStarvation
import AgencyOS.Brain.Conversation
import AgencyOS.Brain.FounderIntent
import AgencyOS.Brain.ToolArguments
import AgencyOS.Builtin.Soundness
import AgencyOS.Frontend.ApiClient
import AgencyOS.Growth.Forecast
import AgencyOS.Growth.HealthScore
import AgencyOS.Growth.RowOrder
import AgencyOS.Growth.Scenario
import AgencyOS.Growth.WeightVersions
import AgencyOS.Intelligence.FairDrain
import AgencyOS.Intelligence.FoundersRecord
import AgencyOS.Leads.AssignmentService
import AgencyOS.Leads.CsvImport
import AgencyOS.Leads.DedupKeys
import AgencyOS.Leads.DuplicateCheck
import AgencyOS.Leads.ExportService
import AgencyOS.Leads.ImportAccounting
import AgencyOS.Leads.StageAdministration
import AgencyOS.Leads.StatusChange
import AgencyOS.Llm.Budget
import AgencyOS.Llm.GeminiContents
import AgencyOS.Llm.Prompts
import AgencyOS.Members.Containment
import AgencyOS.Memory.Capture
import AgencyOS.Memory.Cleanup
import AgencyOS.Memory.Retrieval
import AgencyOS.Outbox.Inbox
import AgencyOS.Outbox.PendingCap
import AgencyOS.Services.Base
import AgencyOS.Services.NamedEntities
import AgencyOS.Tasks.MonthlyDrift
import AgencyOS.Team.InviteLifecycle
import AgencyOS.Tenancy.Confinement
import AgencyOS.Tools.HttpTool
import AgencyOS.Vault.Mfa
import AgencyOS.Vault.RekeyProgress
