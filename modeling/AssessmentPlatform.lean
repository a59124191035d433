import AssessmentPlatform.Grading.Sample
import AssessmentPlatform.Grading.LandedGrade
import AssessmentPlatform.Grading.TriggerToken
import AssessmentPlatform.Grading.ErasurePermanence
import AssessmentPlatform.Grading.Budget
import AssessmentPlatform.Grading.ResultsNotification
import AssessmentPlatform.Grading.JobCorrelation
import AssessmentPlatform.Grading.ErrorReason
import AssessmentPlatform.Grading.GradedWork
import AssessmentPlatform.Grading.LostOverrun
import AssessmentPlatform.Grading.AgentAnswers
import AssessmentPlatform.RateLimit.Exactness
import AssessmentPlatform.Payments.DeliveryOrder
import AssessmentPlatform.Accounts.Lifecycle
import AssessmentPlatform.Accounts.Links
import AssessmentPlatform.Records.SlotLock
import AssessmentPlatform.Records.Administration
import AssessmentPlatform.Records.Clock
import AssessmentPlatform.Records.Access
import AssessmentPlatform.Records.Slices
import AssessmentPlatform.Records.Isolation
import AssessmentPlatform.Records.PurgeClosure
import AssessmentPlatform.Records.Erasure
import AssessmentPlatform.Records.RetentionReach
import AssessmentPlatform.Records.VariantRotation
import AssessmentPlatform.Records.SeatLimit
import AssessmentPlatform.Records.Overrun
import AssessmentPlatform.Records.ReleaseLaw
import AssessmentPlatform.Records.DraftAnswers
import AssessmentPlatform.Records.RefusedStart
import AssessmentPlatform.Records.DraftRace
import AssessmentPlatform.Records.QuestionRemoval
import AssessmentPlatform.Records.Logos
import AssessmentPlatform.Records.AddressChange
import AssessmentPlatform.Analytics.IntegrityRisk
import AssessmentPlatform.Analytics.ReportedRisk
import AssessmentPlatform.Analytics.Overview
import AssessmentPlatform.Analytics.AttemptsGrid
import AssessmentPlatform.RateLimit.SlidingWindow
import AssessmentPlatform.RateLimit.ProxiedClients
import AssessmentPlatform.Security.Redaction
import AssessmentPlatform.Security.Signing
import AssessmentPlatform.Mail.Delivery
import AssessmentPlatform.Mail.Support
import AssessmentPlatform.Records.MintedIds
import AssessmentPlatform.Grading.PostRetry
import AssessmentPlatform.Grading.Stranded
import AssessmentPlatform.Schemas
import AssessmentPlatform.Browser.SittingLock
import AssessmentPlatform.Browser.SessionRefresh
import AssessmentPlatform.Browser.SubmissionsPage
import AssessmentPlatform.Records.SubmissionExport
import AssessmentPlatform.Records.CallbackContract
import AssessmentPlatform.Records.Papers
import AssessmentPlatform.Records.EmptiedSets
import AssessmentPlatform.Records.DistinctPapers
