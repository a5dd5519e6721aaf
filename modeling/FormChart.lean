import FormChart.Storage.Watched
import FormChart.Storage.Folder
import FormChart.Session.Drive
import FormChart.Registration.Wizard.Chart
import FormChart.Registration.Script
import FormChart.Tally
import FormChart.Proofs.Session.Nesting
import FormChart.Proofs.Session.Outcomes
import FormChart.Proofs.Registration.Resuming
import FormChart.Proofs.Registration.Ranges
import FormChart.Proofs.Session.Ceiling
import FormChart.Proofs.Chart.Validity
import FormChart.Proofs.Registration.Tasks
import FormChart.Proofs.Registration.Routes
import FormChart.Proofs.Chart.Paths
import FormChart.Proofs.Session.Queue
import FormChart.Proofs.Session.Sights
import FormChart.Proofs.Registration.Area
import FormChart.Proofs.Registration.Locality
import FormChart.Proofs.Registration.Repetition
import FormChart.Proofs.Session.Reaching
import FormChart.Proofs.Registration.Navigation
import FormChart.Proofs.Registration.Transitions
import FormChart.Proofs.Registration.Leaving
import FormChart.Proofs.Registration.Submission
import FormChart.Proofs.Registration.Members
import FormChart.Proofs.Registration.SteppingBack
import FormChart.Proofs.Registration.Tour
import FormChart.Proofs.Registration.Retracing
import FormChart.Proofs.Registration.Shrinking
import FormChart.Proofs.Session.Tokens
import FormChart.Proofs.Session.Chronicle
import FormChart.Proofs.Session.Rows
import FormChart.Proofs.Session.Coalescing
import FormChart.Proofs.Session.Logging
import FormChart.Proofs.Storage.Documents
import FormChart.Proofs.Chart.Exchange
