import CampusHire.Schedule
import CampusHire.Pattern
import CampusHire.AuditTrail
import CampusHire.OpenStage
import CampusHire.DuplicateApply
import CampusHire.WithdrawStatusRace
import CampusHire.Revocation
import CampusHire.RefreshRotation
import CampusHire.GatewayIdentity
import CampusHire.RegistrationUniqueness
import CampusHire.NotificationProvenance
import CampusHire.QueryPermissions
import CampusHire.ValidatorAgreement
import CampusHire.GatewayLogout
import CampusHire.SessionIndependence
import CampusHire.DisabledAccounts
import CampusHire.SessionConservation
import CampusHire.OpportunityRecords
import CampusHire.AdmissionGate
import CampusHire.WorkQueue
import CampusHire.NotificationDelivery
import CampusHire.Unwinding
import CampusHire.Ownership
import CampusHire.ApplicationErasure
import CampusHire.QueryErasure
import CampusHire.NotificationErasure
import CampusHire.StudentIsolation
import CampusHire.Eligibility
import CampusHire.DeadlineExports
import CampusHire.PathTemplate
import CampusHire.FileUploads
import CampusHire.RotationAtomicity
import CampusHire.CommitThenPublish
import CampusHire.SerialRun
import CampusHire.WithdrawalFinality
import CampusHire.Profiles
import CampusHire.AccountTransactions
import CampusHire.AccountConsistency
import CampusHire.DeadlineRace
import CampusHire.CandidateAccess
import CampusHire.QueryTasks
import CampusHire.Serialization
import CampusHire.ReplyStatusRace
import CampusHire.ShortCircuit
import CampusHire.EligibilityOutcomes
import CampusHire.UploadSafety
import CampusHire.FormFieldOrder
import CampusHire.QueryHistory
import CampusHire.StageIntervals
import CampusHire.Base64url
import CampusHire.PythonJose
import CampusHire.TokenSpellings
import CampusHire.PartialUpdate
import CampusHire.OpportunityUpdates
import CampusHire.ProfileUpdates
import CampusHire.ConcurrentUpdates
import CampusHire.PythonRepr
import CampusHire.PythonDatetime
import CampusHire.Spreadsheet
import CampusHire.ExcelExport
import CampusHire.JsonText
import CampusHire.EventBodies
import CampusHire.TokenTexts
import CampusHire.RunHistory
import CampusHire.Progress
import CampusHire.Campus
import CampusHire.CampusProvenance
import CampusHire.RequestsEnd
import CampusHire.Cookies
import CampusHire.BrowserSession
import CampusHire.SequentialConsumer
import CampusHire.ConsumerLoop
import CampusHire.CommitOrder
import CampusHire.SerialApplications
import CampusHire.Schemas
import CampusHire.PublicApi
import CampusHire.Perimeter
import CampusHire.Accountability
import CampusHire.Authorship
import CampusHire.OpportunityAuthors
import CampusHire.Confidentiality
